import TradeSignals.Files.FileTree
import TradeSignals.Proofs.Outcome

/-!
# Written files

A file that was written is read back with the text that was written
(`TradeSignals.FileTree.read_of_write`), and by the same path. The path leads to the same place as
before: a file that is put into a tree only adds directories on the way to it, and takes none away
(`TradeSignals.FileTree.isDirectory_put`).
-/

namespace TradeSignals

theorem Path.withoutSlashes_eq_self {path : String} (h : endsInSlash path = false) :
    withoutSlashes path = path := by
  have hlast : path.toList.reverse.dropWhile (· = '/') = path.toList.reverse := by
    rcases hchars : path.toList.reverse with _ | ⟨c, rest⟩
    · rfl
    · rw [endsInSlash, ← List.head?_reverse, hchars, List.head?_cons] at h
      exact List.dropWhile_cons_of_neg (by simpa using h)
  rw [withoutSlashes, hlast, List.reverse_reverse, String.ofList_toList]

/-- Where one name leads from a place. -/
def Place.next (p : Place) (name : String) : Place :=
  if name = "" ∨ name = "." then p else if name = ".." then p.up else p.enter name

namespace FileTree

variable {t t' : FileTree} {place : Place} {path content : String}

/-- What is put at a place is there. -/
theorem file?_put (t : FileTree) (place : Place) (content : FileContent) :
    (t.put place content).file? place = some content :=
  List.lookup_cons_self

/-- **A directory stays one** when a file is put into the tree. -/
theorem isDirectory_put {q : Place} (h : t.isDirectory q = true) (content : FileContent) :
    (t.put place content).isDirectory q = true := by
  simp only [isDirectory, Bool.or_eq_true, List.any_eq_true] at h ⊢
  refine h.imp_right ?_
  rintro ⟨⟨other, held⟩, hmem, hway⟩
  by_cases hother : other = place
  · -- The way to the file that gave way leads to the new one as well.
    subst hother
    exact ⟨_, List.mem_cons_self, hway⟩
  · refine ⟨_, List.mem_cons_of_mem _ (List.mem_filter.2 ⟨hmem, ?_⟩), hway⟩
    simpa using hother

/-- Names lead somewhere if each of them but the last leads to a directory. -/
theorem follow_cons_eq_ok {q p : Place} {name : String} {rest : List String} :
    t.follow q (name :: rest) = .ok p ↔ t.isDirectory q = true ∧
      name.utf8ByteSize ≤ Path.maxNameBytes ∧ t.follow (q.next name) rest = .ok p := by
  rw [follow, Place.next]
  by_cases hdirectory : t.isDirectory q = true
  · rw [if_pos hdirectory, and_iff_right hdirectory]
    by_cases hlong : Path.maxNameBytes < name.utf8ByteSize
    · rw [if_pos hlong]
      exact iff_of_false nofun fun h => absurd h.1 (Nat.not_le.2 hlong)
    · rw [if_neg hlong, and_iff_right (Nat.not_lt.1 hlong)]
      split <;> [rfl; split <;> rfl]
  · rw [if_neg hdirectory]
    exact iff_of_false (by split <;> nofun) fun h => hdirectory h.1

/-- Names lead to the same place when a file is put into the tree. -/
theorem follow_put {names : List String} {q p : Place} (h : t.follow q names = .ok p)
    (content : FileContent) : (t.put place content).follow q names = .ok p := by
  induction names generalizing q with
  | nil => exact h
  | cons name rest ih =>
    obtain ⟨hdirectory, hshort, hrest⟩ := follow_cons_eq_ok.1 h
    exact follow_cons_eq_ok.2 ⟨isDirectory_put hdirectory content, hshort, ih hrest⟩

/-- A file is made at the place to which its path leads. -/
theorem locate_of_locateNew (h : t.locateNew path = .ok place) : t.locate path = .ok place := by
  rw [locateNew] at h
  obtain ⟨_, hcheck, h⟩ := Except.bind_eq_ok.1 h
  refine Except.bind_eq_ok.2 ⟨_, hcheck, ?_⟩
  split at h
  · -- A path that ends in a slash is no path of a file.
    obtain ⟨_, -, hthrow⟩ := Except.bind_eq_ok.1 h
    cases hthrow
  · next hslash =>
    obtain ⟨_, hfollow, h⟩ := Except.bind_eq_ok.1 h
    split at h
    · cases h
    · cases h
      rwa [Path.withoutSlashes_eq_self (Bool.eq_false_iff.2 hslash)] at hfollow

theorem locate_put (h : t.locate path = .ok place) (content : FileContent) :
    (t.put place content).locate path = .ok place := by
  obtain ⟨_, hcheck, hfollow⟩ := Except.bind_eq_ok.1 h
  exact Except.bind_eq_ok.2 ⟨_, hcheck, follow_put hfollow content⟩

/-- **A file that was written is read back.** -/
theorem read_of_write (h : t.write path content = .ok t') : t'.read path = .ok content := by
  obtain ⟨place, hplace, ht⟩ := Except.bind_eq_ok.1 h
  cases ht
  rw [read, Except.bind_eq_ok]
  exact ⟨place, locate_put (locate_of_locateNew hplace) _, by rw [file?_put]; rfl⟩

end FileTree

namespace Session

variable {session session' : Session} {path content : String}

/-- **What is written in a session** is read back in it. -/
theorem read_of_write (h : (host.write path content).run session = (.ok (), session')) :
    session'.tree.read path = .ok content := by
  cases hwrite : session.tree.write path content with
  | ok tree =>
    have hrun :
        (host.write path content).run session = (.ok (), { session with tree := tree }) := by
      simp only [host, bind_pure_comp, StateT.run_bind, StateT.run_get, pure_bind, hwrite,
        StateT.run_map, StateT.run_modify, map_pure]
      rfl
    rw [hrun] at h
    cases h
    exact FileTree.read_of_write hwrite
  | error fault =>
    have hrun : (host.write path content).run session = (.error fault, session) := by
      simp only [host, bind_pure_comp, StateT.run_bind, StateT.run_get, pure_bind, hwrite,
        StateT.run_pure]
      rfl
    rw [hrun] at h
    cases h

end Session

end TradeSignals
