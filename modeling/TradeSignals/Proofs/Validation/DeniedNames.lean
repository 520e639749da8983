import Mathlib.Data.Nat.Notation
import Mathlib.Tactic.Common
import TradeSignals.Proofs.Expr.Places
import TradeSignals.Validation.Trusted

/-!
# No way around the search for denied names

A name is denied if one of its dotted parts is (`TradeSignals.DeniedName.IsDenied`), and an
expression shows the names of its calls, of their keywords, of its members and its bare names
(`TradeSignals.Expr.names`). Both are said here without the search.

The search finds a name if and only if there is a denied one at some place of the expression,
however deep and whatever argument it is in, and what it finds is what the first such place
shows; quoted texts and other literals have no part in it. A text in which something is found
is refused before anything else of it is looked at, so no strategy and no text comes out of it
(`TradeSignals.DeniedName.find?_spec`).
-/

namespace TradeSignals

/-! ### Names -/

/-- The names that an expression shows itself, its arguments left out. -/
def Expr.names : Expr → List String
  | .call callee _ keywords => callee :: keywords.map (·.1)
  | .member kind item => [kind, item]
  | .name word => [word]
  | .literal _ => []

namespace DeniedName

/-- **A denied name**: it is made of texts without dots, with dots between them, and one of
these texts begins with two underscores or is a denied word. -/
def IsDenied (name : String) : Prop :=
  ∃ ps : List (List Char), (∀ p ∈ ps, '.' ∉ p) ∧ ['.'].intercalate ps = name.toList ∧
    ∃ p ∈ ps, ['_', '_'] <+: p ∨ String.ofList p ∈ words

/-- Does an expression itself show a denied name? -/
def Shows (e : Expr) : Prop :=
  ∃ name ∈ e.names, IsDenied name

/-- **A denied name stands somewhere** in an expression, at whatever place. -/
def ShowsAnywhere (root : Expr) : Prop :=
  ∃ place t, root.subtermAt? place = some t ∧ Shows t

/-- What is reported of an expression that shows a denied name: the name of a call, or else
its first denied keyword; a bare name; a member together with its enumeration. -/
inductive Reported : Expr → String → Prop where
  /-- The name of a call is denied. -/
  | callee {callee : String} {positional : List Expr} {keywords : List (String × Expr)}
      (h : IsDenied callee) : Reported (.call callee positional keywords) callee
  /-- A keyword is denied; the name of the call and the keywords before it are not. -/
  | key {callee key : String} {positional : List Expr} {e : Expr}
      {before after : List (String × Expr)} (hcallee : ¬IsDenied callee)
      (hbefore : ∀ ke ∈ before, ¬IsDenied ke.1) (h : IsDenied key) :
      Reported (.call callee positional (before ++ (key, e) :: after)) key
  /-- A bare name is denied. -/
  | name {word : String} (h : IsDenied word) : Reported (.name word) word
  /-- A member or its enumeration is denied. -/
  | member {kind item : String} (h : IsDenied kind ∨ IsDenied item) :
      Reported (.member kind item) (kind ++ "." ++ item)

theorem deniesPart_iff {p : List Char} :
    deniesPart p = true ↔ ['_', '_'] <+: p ∨ String.ofList p ∈ words := by
  rw [deniesPart, Bool.or_eq_true, List.isPrefixOf_iff_prefix, List.contains_iff_mem]

/-- **The names that are denied** are those of which a part is. -/
theorem denies_iff {name : String} : denies name = true ↔ IsDenied name := by
  obtain ⟨hne, hdots, hname⟩ := parts_spec name.toList
  rw [denies, List.any_eq_true]
  simp only [deniesPart_iff]
  constructor
  · exact fun h => ⟨_, hdots, hname, h⟩
  · rintro ⟨ps, hps, hjoin, p, hp, h⟩
    -- There is only one way to take a name apart.
    rw [← hjoin, parts_intercalate (List.ne_nil_of_mem hp) hps]
    exact ⟨p, hp, h⟩

theorem denies_eq_false_iff {name : String} : denies name = false ↔ ¬IsDenied name := by
  rw [← denies_iff, Bool.not_eq_true]

/-! ### One node -/

theorem here?_of_reported {e : Expr} {name : String} (h : Reported e name) :
    here? e = some name := by
  cases h with
  | callee h => rw [here?, if_pos (denies_iff.2 h)]
  | @key callee key _ _ before _ hcallee hbefore h =>
    rw [here?, if_neg (fun hc => hcallee (denies_iff.1 hc)), List.find?_eq_some_iff_append]
    refine ⟨denies_iff.2 h, before.map (·.1), _, by rw [List.map_append, List.map_cons], ?_⟩
    refine List.forall_mem_map.2 fun ke hke => ?_
    rw [denies_eq_false_iff.2 (hbefore ke hke), Bool.not_false]
  | name h => rw [here?, if_pos (denies_iff.2 h)]
  | member h =>
    rw [here?, if_pos]
    · rfl
    · rw [Bool.or_eq_true, denies_iff, denies_iff]
      exact h

/-- **What is found at a node** is what is reported of it. -/
theorem here?_eq_some_iff {e : Expr} {name : String} : here? e = some name ↔ Reported e name := by
  refine ⟨fun h => ?_, here?_of_reported⟩
  cases e with
  | literal => cases h
  | name word =>
    rw [here?] at h
    split at h <;> cases h
    exact .name (denies_iff.1 ‹_›)
  | member kind item =>
    rw [here?] at h
    split at h <;> cases h
    rename_i hdenies
    rw [Bool.or_eq_true, denies_iff, denies_iff] at hdenies
    exact .member hdenies
  | call callee positional keywords =>
    rw [here?] at h
    split at h
    · cases h
      exact .callee (denies_iff.1 ‹_›)
    · next hcallee =>
      obtain ⟨hkey, before, after, hsplit, hbefore⟩ := List.find?_eq_some_iff_append.1 h
      obtain ⟨kbefore, krest, rfl, rfl, hrest⟩ := List.map_eq_append_iff.1 hsplit
      obtain ⟨⟨key, e⟩, kafter, rfl, rfl, -⟩ := List.map_eq_cons_iff.1 hrest
      refine .key (fun hc => hcallee (denies_iff.2 hc)) (fun ke hke => ?_) (denies_iff.1 hkey)
      have hke := hbefore ke.1 (List.mem_map_of_mem hke)
      rw [Bool.not_eq_true'] at hke
      exact denies_eq_false_iff.1 hke

/-- Nothing is found at a node if and only if it shows no denied name. -/
theorem here?_eq_none_iff {e : Expr} : here? e = none ↔ ¬Shows e := by
  cases e with
  | literal => simp [here?, Shows, Expr.names]
  | name word => simp [here?, Shows, Expr.names, denies_iff]
  | member kind item => simp [here?, Shows, Expr.names, denies_iff]
  | call callee positional keywords =>
    rw [here?, Shows, Expr.names]
    split
    · next h =>
      refine ⟨fun hnone => (nomatch hnone), fun hno => absurd ?_ hno⟩
      exact ⟨callee, List.mem_cons_self, denies_iff.1 h⟩
    · next h =>
      rw [List.find?_eq_none]
      simp only [← denies_iff, not_exists, not_and, List.forall_mem_cons]
      exact (and_iff_right h).symm

/-! ### The whole expression -/

theorem find?_eq_none_iff {root : Expr} : find? root = none ↔ ¬ShowsAnywhere root := by
  rw [find?, Expr.findSome?_subterms_eq_none]
  simp only [here?_eq_none_iff, ShowsAnywhere, not_exists, not_and]

theorem isSome_find?_iff {root : Expr} : (find? root).isSome = true ↔ ShowsAnywhere root := by
  rw [Option.isSome_iff_ne_none, ne_eq, find?_eq_none_iff, not_not]

/-- **What is found** is what the first place that shows a denied name shows. -/
theorem find?_eq_some_iff {root : Expr} {name : String} : find? root = some name ↔
    ∃ place t, root.subtermAt? place = some t ∧ Reported t name ∧
      ∀ earlier < place, ∀ u, root.subtermAt? earlier = some u → ¬Shows u := by
  rw [find?, Expr.findSome?_subterms_eq_some]
  simp only [here?_eq_some_iff, here?_eq_none_iff]

/-- Literals are never found, whatever they are. -/
theorem find?_mapLiterals (relabel : Literal → Literal) (root : Expr) :
    find? (root.mapLiterals relabel) = find? root := by
  have hhere : ∀ e : Expr, here? (e.mapLiterals relabel) = here? e := by
    intro e
    cases e with
    | call c ps ks =>
      rw [Expr.mapLiterals_call, here?, here?, List.map_map]
      rfl
    | _ => rfl
  induction root using Expr.inductChildren with
  | step e ih =>
    rw [find?, Expr.findSome?_subterms_eq, hhere, Expr.children_mapLiterals, List.findSome?_map,
      find?, Expr.findSome?_subterms_eq]
    refine congrArg _ ?_
    generalize e.children = children at ih
    induction children with
    | nil => rfl
    | cons a rest ihrest =>
      have ha : ((a.mapLiterals relabel).subterms.findSome? here?) = a.subterms.findSome? here? :=
        ih a List.mem_cons_self
      rw [List.findSome?_cons, List.findSome?_cons, Function.comp_apply, ha,
        ihrest fun b hb => ih b (List.mem_cons_of_mem _ hb)]

/-! ### The validation -/

/-- A text with a denied name is refused for that name and nothing else. -/
theorem validate_of_find? {source name : String} {root : Expr}
    (hparse : Expr.parse source = .ok root) (hfind : find? root = some name) (defaults : Defaults)
    (today : Date) : validate source defaults today =
      ⟨⟨[("strategy", "disallowed construct '" ++ name ++ "'")]⟩, none⟩ := by
  have hcheck : Strategy.check source defaults today = .fail (.disallowed name) := by
    rw [Strategy.check, hparse]
    dsimp only
    rw [Strategy.checkExpr.eq_def, hfind]
  rw [validate, hcheck]
  rfl

/-- **The search for denied names cannot be got around.**

It finds a name if and only if there is a denied one anywhere in the expression, and then what
the first place that shows one shows; it does not depend on the literals. A text whose
expression shows a denied name anywhere comes to nothing, under all defaults and on every day:
there is no strategy and no text, the name is all that is recorded, and the text is not
trusted either. -/
theorem find?_spec (root : Expr) :
    ((find? root).isSome = true ↔ ShowsAnywhere root) ∧
    (∀ name, find? root = some name ↔ ∃ place t, root.subtermAt? place = some t ∧
      Reported t name ∧ ∀ earlier < place, ∀ u, root.subtermAt? earlier = some u → ¬Shows u) ∧
    (∀ relabel : Literal → Literal, find? (root.mapLiterals relabel) = find? root) ∧
    ∀ source, Expr.parse source = .ok root → ShowsAnywhere root →
      ∃ name, find? root = some name ∧ ∀ (defaults : Defaults) (today : Date),
        (validate source defaults today).ok = false ∧
        (validate source defaults today).sanitized = "" ∧
        (validate source defaults today).strategy = none ∧
        (validate source defaults today).changes.entries =
          [("strategy", "disallowed construct '" ++ name ++ "'")] ∧
        Strategy.ofTrusted source today =
          .error (.rejected ⟨[("strategy", "disallowed construct '" ++ name ++ "'")]⟩) := by
  refine ⟨isSome_find?_iff, fun name => find?_eq_some_iff, fun r => find?_mapLiterals r root, ?_⟩
  intro source hparse hshows
  obtain ⟨name, hname⟩ := Option.isSome_iff_exists.1 (isSome_find?_iff.2 hshows)
  refine ⟨name, hname, fun defaults today => ?_⟩
  have hvalidate := validate_of_find? hparse hname
  rw [Strategy.ofTrusted, hvalidate, hvalidate]
  exact ⟨rfl, rfl, rfl, rfl, rfl⟩

/-- A text with a denied name deep inside of an argument that no parameter takes, after quoted
texts that are denied words. -/
def hostile : String :=
  "Strategy('eval', ticker='os', note=AND('sys', SMA(length=os.path, __import__=1)))"

/-- Such a text is refused for the keyword: a call is looked at before its arguments are. -/
theorem find?_spec_hostile : ∃ root, Expr.parse hostile = .ok root ∧ ShowsAnywhere root ∧
    (validate hostile .standard ⟨2024, 2, 29, by decide⟩).ok = false ∧
    (validate hostile .standard ⟨2024, 2, 29, by decide⟩).changes.entries =
      [("strategy", "disallowed construct '__import__'")] := by
  have hfound : (Expr.parse hostile).toOption.bind find? = some "__import__" := by
    decide +kernel
  cases hparse : Expr.parse hostile with
  | error e =>
    rw [hparse] at hfound
    cases hfound
  | ok root =>
    rw [hparse] at hfound
    have hfind : find? root = some "__import__" := hfound
    obtain ⟨hsome, -, -, hrefused⟩ := find?_spec root
    have hshows : ShowsAnywhere root := hsome.1 (hfind ▸ rfl)
    obtain ⟨name, hname, hall⟩ := hrefused hostile hparse hshows
    obtain rfl : "__import__" = name := Option.some.inj (hfind.symm.trans hname)
    obtain ⟨hok, -, -, hchanges, -⟩ := hall .standard ⟨2024, 2, 29, by decide⟩
    exact ⟨root, rfl, hshows, hok, hchanges⟩

end DeniedName

end TradeSignals
