import MipsAssembler.Text.Quoted

/-!
# Files and directories

The command line reads one file and may write one.  This module is a model of the
place where it does so: a tree of directories and files, each known by the list of names
that leads to it from the root, and a working directory in that tree, from which paths
that do not begin with a slash start.

A path is a text, and most of the rules here are about what a path means.  Names are
separated by slashes, and repeated slashes count as one.  A single dot stays where it
is and a double dot goes up, at the root to the root itself.  Every name but the last must
lead to a directory.  A slash at the end asks for a directory, which neither reading nor
writing accepts, but the two complain differently: reading a file under such a path finds
that it is no directory, while writing refuses the path outright, whether or not there is a
file.

Lengths are limited, and counted in bytes.  A path that is too long as a whole is refused
before anything else; a name that is too long is refused when its turn comes, so a missing
directory before it is noticed first.

The system may refuse any step, for reasons of its own: to look a name up in a directory, to
open a file for reading or for writing, or to make a new one.  A file that was opened can
still fail.  It is then read in vain, or written in part: opening a file for writing empties
it, and when the writing breaks off, the first bytes are there and the others are not.

All files are plain ones.  A file holds what was written to it, and each is known by one place
only, so there are no links and no devices.
-/

namespace MipsAssembler

/-- Why the system does not do what it is asked. -/
inductive SystemError where
  | notFound
  | notADirectory
  | isADirectory
  | nameTooLong
  | other (code : Nat) (reason : String)
  deriving DecidableEq, Repr, Inhabited

namespace SystemError

/-- The number of an error. -/
def code : SystemError → Nat
  | notFound => 2
  | notADirectory => 20
  | isADirectory => 21
  | nameTooLong => 36
  | other code _ => code

/-- The reason in words. -/
def reason : SystemError → String
  | notFound => "No such file or directory"
  | notADirectory => "Not a directory"
  | isADirectory => "Is a directory"
  | nameTooLong => "File name too long"
  | other _ reason => reason

/-- The error as it is shown without a path. -/
def message (e : SystemError) : String := s!"[Errno {e.code}] {e.reason}"

end SystemError

/-- Why a file could not be used: it could not be opened, or it was opened and the system
gave up before the end. -/
inductive FileError where
  | unopened (e : SystemError)
  | brokenOff (e : SystemError)
  deriving DecidableEq, Repr, Inhabited

/-- The error as it is shown for a path.  Only a path that could not be opened is named. -/
def FileError.message (path : String) : FileError → String
  | unopened e => s!"{e.message}: {Text.quoted path}"
  | brokenOff e => e.message

/-- The names that lead from the root to a file or directory. -/
abbrev Place := List String

/-- The steps that the system can refuse at a place. -/
inductive Step where
  | search | openToRead | openToWrite | create | read
  deriving DecidableEq, Repr, Inhabited

/-- A tree of files and directories, with the directory in which paths start.  The root is
not listed.  `refusal` is what the system says against a step at a place.  `interruption` says
of a number of bytes that are written to a place whether the writing breaks off, how many bytes
are kept then, and why. -/
structure FileSystem where
  working : Place
  directories : List Place
  files : List (Place × ByteArray)
  refusal : Step → Place → Option SystemError
  interruption : Place → Nat → Option (Nat × SystemError)

namespace FileSystem

/-- An empty tree, in which the system refuses nothing. -/
def empty : FileSystem := ⟨[], [], [], fun _ _ => none, fun _ _ => none⟩

/-- Whether a place is a directory. -/
def isDirectory (fs : FileSystem) (p : Place) : Bool := p.isEmpty || fs.directories.contains p

/-- The contents of the file at a place. -/
def contents? (fs : FileSystem) (p : Place) : Option ByteArray := fs.files.lookup p

/-- The file at a place is created or replaced. -/
def store (fs : FileSystem) (p : Place) (bytes : ByteArray) : FileSystem :=
  { fs with files := (p, bytes) :: fs.files.filter (·.1 != p) }

/-- Leaving out the entries of one key does not change the look-up of another. -/
theorem lookup_filter_ne {p q : Place} (h : q ≠ p) :
    ∀ entries : List (Place × ByteArray),
      (entries.filter (·.1 != p)).lookup q = entries.lookup q
  | [] => rfl
  | (r, bytes) :: entries => by
    have ih := lookup_filter_ne h entries
    by_cases hr : r = p
    · have hq : (q == r) = false := by simpa [hr] using h
      rw [List.filter_cons_of_neg (by simp [hr]), ih, List.lookup_cons, hq]
    · rw [List.filter_cons_of_pos (by simpa using hr), List.lookup_cons, List.lookup_cons, ih]

/-- Storing a file changes the contents of that file and of no other. -/
theorem contents?_store (fs : FileSystem) (p q : Place) (bytes : ByteArray) :
    (fs.store p bytes).contents? q = if q = p then some bytes else fs.contents? q := by
  by_cases h : q = p
  · rw [if_pos h, h]
    simp [contents?, store]
  · have hq : (q == p) = false := by simpa using h
    rw [if_neg h]
    simp only [contents?, store, List.lookup_cons, hq]
    exact lookup_filter_ne h fs.files

/-- A step that the system may refuse. -/
def permit (fs : FileSystem) (step : Step) (p : Place) : Except SystemError Unit :=
  match fs.refusal step p with
  | some e => .error e
  | none => .ok ()

/-! ## Paths -/

/-- A text cut at its slashes. -/
def cutAtSlashes : List Char → List (List Char)
  | [] => [[]]
  | c :: cs =>
    if c = '/' then [] :: cutAtSlashes cs
    else
      match cutAtSlashes cs with
      | [] => [[c]]
      | name :: names => (c :: name) :: names

/-- The names in a path. -/
def names (path : String) : List String :=
  ((cutAtSlashes path.toList).filter (· != [])).map String.ofList

/-- Whether a path asks for a directory. -/
def endsWithSlash (path : String) : Bool := path.toList.getLast? == some '/'

/-- The most bytes that a name may have. -/
def maxNameBytes : Nat := 255

/-- The most bytes that a path may have. -/
def maxPathBytes : Nat := 4095

/-- A name may not be too long, wherever it is looked for. -/
def checkName (name : String) : Except SystemError Unit :=
  if maxNameBytes < name.utf8ByteSize then .error .nameTooLong else .ok ()

/-- Where a path starts: at the root if it begins with a slash. -/
def start (fs : FileSystem) (path : String) : Place :=
  if path.toList.head? = some '/' then [] else fs.working

/-- One step along a path into a directory. -/
def descend (fs : FileSystem) (here : Place) (name : String) : Except SystemError Place := do
  fs.permit .search here
  if name = "." then .ok here
  else if name = ".." then .ok here.dropLast
  else
    checkName name
    if fs.isDirectory (here ++ [name]) then .ok (here ++ [name])
    else if (fs.contents? (here ++ [name])).isSome then .error .notADirectory
    else .error .notFound

/-- What a path leads to: certainly a directory, or a name in a directory. -/
inductive Target where
  | directory (p : Place)
  | entry (here : Place) (name : String)
  deriving DecidableEq, Repr, Inhabited

/-- What a last name leads to. -/
def lastName (here : Place) (name : String) : Target :=
  if name = "." then .directory here
  else if name = ".." then .directory here.dropLast
  else .entry here name

/-- The way along the names of a path, up to the last one. -/
def walk (fs : FileSystem) (here : Place) : List String → Except SystemError Target
  | [] => .ok (.directory here)
  | [name] => do
    fs.permit .search here
    return lastName here name
  | name :: rest => do
    let next ← fs.descend here name
    fs.walk next rest

/-- What a path leads to.  The empty path leads nowhere. -/
def target (fs : FileSystem) (path : String) : Except SystemError Target :=
  if path = "" then .error .notFound
  else if maxPathBytes < path.utf8ByteSize then .error .nameTooLong
  else fs.walk (fs.start path) (names path)

/-! ## Opening files -/

/-- A directory is opened for reading in vain. -/
def openDirectory (fs : FileSystem) (p : Place) : Except SystemError (Place × ByteArray) := do
  fs.permit .openToRead p
  .error .isADirectory

/-- The place of the file that can be read under a path, and what is in it. -/
def readable (fs : FileSystem) (path : String) : Except SystemError (Place × ByteArray) := do
  match ← fs.target path with
  | .directory p => fs.openDirectory p
  | .entry here name =>
    checkName name
    let place := here ++ [name]
    if fs.isDirectory place then fs.openDirectory place
    else
      match fs.contents? place with
      | none => .error .notFound
      | some bytes =>
        if endsWithSlash path then .error .notADirectory
        else
          fs.permit .openToRead place
          return (place, bytes)

/-- The contents of the file that a path leads to. -/
def read (fs : FileSystem) (path : String) : Except FileError ByteArray :=
  match fs.readable path with
  | .error e => .error (.unopened e)
  | .ok (place, bytes) =>
    match fs.refusal .read place with
    | some e => .error (.brokenOff e)
    | none => .ok bytes

/-- The place of the file that can be written under a path. -/
def writable (fs : FileSystem) (path : String) : Except SystemError Place := do
  match ← fs.target path with
  | .directory _ => .error .isADirectory
  | .entry here name =>
    if endsWithSlash path then .error .isADirectory
    else
      checkName name
      let place := here ++ [name]
      if fs.isDirectory place then .error .isADirectory
      else
        if (fs.contents? place).isSome then fs.permit .openToWrite place
        else fs.permit .create here
        return place

/-- The file that a path leads to is written, and the files are as they are then. -/
def write (fs : FileSystem) (path : String) (bytes : ByteArray) :
    Except FileError Unit × FileSystem :=
  match fs.writable path with
  | .error e => (.error (.unopened e), fs)
  | .ok place =>
    match fs.interruption place bytes.size with
    | some (kept, e) => (.error (.brokenOff e), fs.store place (bytes.extract 0 kept))
    | none => (.ok (), fs.store place bytes)

/-! ## Setting up and comparing -/

/-- The places that the names of a path lead through, starting from `here`, when every
name that is met is there or is made. -/
def passages (here : Place) : List String → List Place
  | [] => []
  | name :: rest =>
    let next :=
      if name = "." then here else if name = ".." then here.dropLast else here ++ [name]
    next :: passages next rest

/-- A directory is made, with all directories on the way to it. -/
def makeDirectory (fs : FileSystem) (path : String) : FileSystem :=
  { fs with directories := fs.directories ++ passages (fs.start path) (names path) }

/-- A file is put into the tree, with all directories on the way to it. -/
def addFile (fs : FileSystem) (path : String) (bytes : ByteArray) : FileSystem :=
  let way := passages (fs.start path) (names path)
  { fs with directories := fs.directories ++ way.dropLast }.store (way.getLast?.getD []) bytes

/-- A directory is made and becomes the working directory. -/
def enter (fs : FileSystem) (path : String) : FileSystem :=
  { fs.makeDirectory path with
    working := ((passages (fs.start path) (names path)).getLast?).getD fs.working }

/-- A place below the working directory as a relative path. -/
def relativePath? (fs : FileSystem) (p : Place) : Option String :=
  (fs.working.isPrefixOf? p).map (String.intercalate "/")

/-- The files below the working directory that `later` has and `earlier` has not, or with
other contents, in the order of their paths. -/
def changes (earlier later : FileSystem) : List (String × ByteArray) :=
  let changed := later.files.filter fun file => earlier.contents? file.1 != some file.2
  let shown := changed.filterMap fun file =>
    (later.relativePath? file.1).map fun path => (path, file.2)
  shown.mergeSort fun a b => decide (a.1 ≤ b.1)

end FileSystem
end MipsAssembler
