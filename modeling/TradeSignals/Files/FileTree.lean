import TradeSignals.Files.Host

/-!
# File trees

The files and directories around a working directory, as a value. Paths are followed
name by name as a system follows them: every name but the last has to be that of a
directory, a dot stays where it is, two dots go up, and an empty name stands for a
directory too. A way can lead out of the working directory: there are directories all
the way up, and the root, but nothing is known of what else is in them.
-/

namespace TradeSignals

/-- What a file holds. -/
inductive FileContent where
  /-- A text. -/
  | text (content : String)
  /-- Bytes that are no text. -/
  | binary
deriving DecidableEq

/-- Where a way through the files begins. -/
inductive Origin where
  /-- At the working directory, or so many directories above it. -/
  | above (levels : Nat)
  /-- At the root. -/
  | root
deriving DecidableEq

/-- A place: where the way to it begins, and the names on the way. -/
structure Place where
  /-- Where the way begins. -/
  origin : Origin
  /-- The names that lead from there to the place. -/
  names : List String
deriving DecidableEq

namespace Place

/-- The place in the working directory that names lead to. -/
def below (names : List String) : Place := ⟨.above 0, names⟩

/-- The place where a path begins. -/
def start (path : String) : Place := if Path.isAbsolute path then ⟨.root, []⟩ else below []

/-- The place of a name in a directory. -/
def enter (p : Place) (name : String) : Place := { p with names := p.names ++ [name] }

/-- The directory that a place is in. Nothing is above the root. -/
def up (p : Place) : Place :=
  match p.origin, p.names with
  | .above levels, [] => ⟨.above (levels + 1), []⟩
  | .root, [] => p
  | _, names => { p with names := names.dropLast }

/-- The names that lead from one place down to another. -/
def namesTo? (p q : Place) : Option (List String) :=
  if p.origin = q.origin ∧ p.names.isPrefixOf q.names then some (q.names.drop p.names.length)
  else none

end Place

/-- Files and directories. Every place on the way to a file or a directory is a
directory. -/
structure FileTree where
  /-- The files and where they are. -/
  files : List (Place × FileContent)
  /-- Places of directories, with or without files. -/
  directories : List Place

namespace FileTree

/-- The working directory alone. -/
def empty : FileTree := ⟨[], []⟩

/-- Is there a directory at a place? -/
def isDirectory (t : FileTree) (place : Place) : Bool :=
  place.names.isEmpty || t.directories.any (fun d => (place.namesTo? d).isSome) ||
    t.files.any fun f => (place.namesTo? f.1).isSome && f.1 ≠ place

/-- The file at a place. -/
def file? (t : FileTree) (place : Place) : Option FileContent := t.files.lookup place

/-- Follows names from a place on. The place that the names lead to need not be there,
but all before it have to be directories. -/
def follow (t : FileTree) (place : Place) : List String → Except FileFault Place
  | [] => .ok place
  | name :: rest =>
    if t.isDirectory place then
      if Path.maxNameBytes < name.utf8ByteSize then .error .nameTooLong
      else if name = "" ∨ name = "." then follow t place rest
      else if name = ".." then follow t place.up rest
      else follow t (place.enter name) rest
    else if (t.file? place).isSome then .error .notDirectory
    else .error .notFound

/-- The place that a path leads to. -/
def locate (t : FileTree) (path : String) : Except FileFault Place := do
  Path.check path
  t.follow (.start path) (Path.names path)

/-- **The text of a file.** -/
def read (t : FileTree) (path : String) : Except FileFault String := do
  let place ← t.locate path
  match t.file? place with
  | some (.text content) => pure content
  | some .binary => throw .notText
  | none => throw (if t.isDirectory place then .isDirectory else .notFound)

/-- A tree with a file at a place, in the stead of the one that was there. -/
def put (t : FileTree) (place : Place) (content : FileContent) : FileTree :=
  { t with files := (place, content) :: t.files.filter (·.1 ≠ place) }

/-- The place where a path says that a file be made. A path that ends in a slash can only
be that of a directory, whatever its last name is. -/
def locateNew (t : FileTree) (path : String) : Except FileFault Place := do
  Path.check path
  let names := Path.names (Path.withoutSlashes path)
  if Path.endsInSlash path then
    let _ ← t.follow (.start path) (names.dropLast ++ [""])
    throw .isDirectory
  let place ← t.follow (.start path) names
  if t.isDirectory place then throw .isDirectory else pure place

/-- **Makes a file** with a text. -/
def write (t : FileTree) (path content : String) : Except FileFault FileTree :=
  return t.put (← t.locateNew path) (.text content)

/-- The names at a place. -/
def children (t : FileTree) (place : Place) : List String :=
  let places := t.directories ++ t.files.map (·.1)
  (places.filterMap fun p => (place.namesTo? p).bind List.head?).eraseDups

/-- **The names in a directory.** -/
def list (t : FileTree) (path : String) : Except FileFault (List String) := do
  let place ← t.locate path
  if t.isDirectory place then pure (t.children place)
  else throw (if (t.file? place).isSome then .notDirectory else .notFound)

end FileTree

/-- A run on a file tree: the files, and what was shown. -/
structure Session where
  /-- The files. -/
  tree : FileTree
  /-- The result that was shown. -/
  said : String
  /-- What was shown about the run. -/
  warned : String

namespace Session

/-- A run that has just begun. -/
def start (tree : FileTree) : Session := ⟨tree, "", ""⟩

/-- **The host that is a value.** -/
def host : Host (StateM Session) where
  read path := return (← get).tree.read path
  write path content := do
    match (← get).tree.write path content with
    | .ok tree =>
      modify fun s => { s with tree := tree }
      return .ok ()
    | .error fault => return .error fault
  say line := modify fun s => { s with said := s.said ++ line ++ "\n" }
  warn line := modify fun s => { s with warned := s.warned ++ line ++ "\n" }

end Session

end TradeSignals
