import AnnotatedRoutes.FileTree.Path
import AnnotatedRoutes.Keyed
import AnnotatedRoutes.Text.Utf8

namespace AnnotatedRoutes

/-- The names that lead from the root to an entry, through directories only. -/
abbrev Location := List Text

inductive Entry where
  | directory
  | file (content : Text.Bytes)
  | link (target : Text)
  deriving DecidableEq

def Entry.isFile : Entry → Bool
  | .file _ => true
  | _ => false

def Entry.isDirectory : Entry → Bool
  | .directory => true
  | _ => false

/-- Entries by location. The root is a directory and is not listed. -/
structure FileTree where
  entries : Keyed Location Entry := ∅
  deriving DecidableEq

/-- Why the tree refuses an operation. -/
inductive FileFault where
  | missing
  | alreadyThere
  | notDirectory
  | isDirectory
  | nameTooLong
  | tooManyLinks
  /-- The path holds a character that no name can hold. -/
  | nullCharacter
  deriving DecidableEq

/-- A refused operation and the path it was to work on. -/
structure FileError where
  fault : FileFault
  path : Path
  deriving DecidableEq

def FileFault.number : FileFault → Nat
  | .missing => 2
  | .alreadyThere => 17
  | .notDirectory => 20
  | .isDirectory => 21
  | .nameTooLong => 36
  | .tooManyLinks => 40
  | .nullCharacter => 22

def FileFault.description : FileFault → Text
  | .missing => "No such file or directory".toList
  | .alreadyThere => "File exists".toList
  | .notDirectory => "Not a directory".toList
  | .isDirectory => "Is a directory".toList
  | .nameTooLong => "File name too long".toList
  | .tooManyLinks => "Too many levels of symbolic links".toList
  | .nullCharacter => "embedded null byte".toList

/-- Faults that tell that nothing is there. -/
def FileFault.tellsAbsence : FileFault → Bool
  | .missing | .notDirectory | .tooManyLinks | .nullCharacter => true
  | _ => false

def FileError.message (e : FileError) : Text :=
  if e.fault = .nullCharacter then e.fault.description
  else
    "[Errno ".toList ++ Text.ofNat e.fault.number ++ "] ".toList ++ e.fault.description ++
      ": ".toList ++ Text.quoted e.path.toText

namespace FileTree

def entry? (t : FileTree) (l : Location) : Option Entry :=
  if l = [] then some .directory else t.entries.get? l

def put (t : FileTree) (l : Location) (e : Entry) : FileTree := ⟨t.entries.put l e⟩

/-- The greatest number of bytes in a name, and in a path. -/
def nameLimit : Nat := 255

def pathLimit : Nat := 4095

def byteLength (t : Text) : Nat := (Text.encode t).length

/-- The number of links that one look-up may follow. -/
def linkLimit : Nat := 40

/-- Where the names in a link target start from. -/
def startOf (here : Location) (target : Text) : Location :=
  if Path.rootOf target = .relative then here else []

/-- What a look-up is for: the entry of exactly this name, what the entry leads to, or a place for a
file that may be made. -/
inductive Purpose where
  | entry
  | target
  | making
  deriving DecidableEq

/-- Whether a name is the last one and slashes follow it. -/
def endsInSlash (rest : List Text) : Bool := rest ≠ [] && rest.all (· = [])

/-- Goes from a location by the names of a path, through links. The last name may be missing from
its directory. An empty name stands for the directory it is in; a name that slashes follow is that
of a directory, where no file is made. -/
def walk (t : FileTree) (purpose : Purpose) (links : Nat) (here : Location) :
    List Text → Except FileFault Location
  | [] => .ok here
  | name :: rest =>
    if t.entry? here ≠ some .directory then .error .notDirectory
    else if name = [] || name = Path.dot then walk t purpose links here rest
    else if name = Path.dots then walk t purpose links here.dropLast rest
    else if purpose = .making && endsInSlash rest then .error .isDirectory
    else if nameLimit < byteLength name then .error .nameTooLong
    else
      let next := here ++ [name]
      match t.entry? next with
      | none => if rest = [] then .ok next else .error .missing
      | some (.link target) =>
        if rest = [] && purpose = .entry then .ok next
        else match links with
          | 0 => .error .tooManyLinks
          | links + 1 =>
            walk t purpose links (startOf here target) (Text.splitAt '/' target ++ rest)
      | some _ => walk t purpose links next rest
termination_by names => (links, names.length)

/-- The location that a path leads to from the working directory. -/
def find (t : FileTree) (purpose : Purpose) (working : Location) (p : Path) :
    Except FileFault Location :=
  if p.names.any (·.contains '\x00') then .error .nullCharacter
  else if pathLimit < byteLength p.toText then .error .nameTooLong
  else
    let start := if p.root = .relative then working else []
    t.walk purpose linkLimit start p.names

/-- The file or directory that a path leads to. -/
def stat (t : FileTree) (working : Location) (p : Path) : Except FileFault Entry := do
  let l ← t.find .target working p
  match t.entry? l with
  | some e => return e
  | none => .error .missing

/-- A question about what a path leads to; the answer is no where nothing is. -/
def asks (t : FileTree) (working : Location) (p : Path) (question : Entry → Bool) :
    Except FileError Bool :=
  match t.stat working p with
  | .ok e => .ok (question e)
  | .error fault => if fault.tellsAbsence then .ok false else .error ⟨fault, p⟩

def isThere (t : FileTree) (working : Location) (p : Path) : Except FileError Bool :=
  t.asks working p fun _ => true

def isFile (t : FileTree) (working : Location) (p : Path) : Except FileError Bool :=
  t.asks working p Entry.isFile

def isDirectory (t : FileTree) (working : Location) (p : Path) : Except FileError Bool :=
  t.asks working p Entry.isDirectory

/-- The content of a file. -/
def read (t : FileTree) (working : Location) (p : Path) : Except FileError Text.Bytes :=
  match t.stat working p with
  | .ok (.file content) => .ok content
  | .ok _ => .error ⟨.isDirectory, p⟩
  | .error fault => .error ⟨fault, p⟩

/-- The content of a file as text, without the bytes that are no text. -/
def readText (t : FileTree) (working : Location) (p : Path) : Except FileError Text :=
  (t.read working p).map Text.decodeLossy

/-- Puts a file, made from what was there before, where a path leads to. -/
def change (t : FileTree) (working : Location) (p : Path) (f : Text.Bytes → Text.Bytes) :
    Except FileError FileTree :=
  match t.find .making working p with
  | .error fault => .error ⟨fault, p⟩
  | .ok l =>
    match t.entry? l with
    | none => .ok (t.put l (.file (f [])))
    | some (.file content) => .ok (t.put l (.file (f content)))
    | some _ => .error ⟨.isDirectory, p⟩

/-- Replaces the content of a file. -/
def write (t : FileTree) (working : Location) (p : Path) (text : Text) :
    Except FileError FileTree :=
  t.change working p fun _ => Text.encode text

/-- Adds to the end of a file. -/
def append (t : FileTree) (working : Location) (p : Path) (text : Text) :
    Except FileError FileTree :=
  t.change working p fun content => content ++ Text.encode text

/-- Makes a directory in one that is there. -/
def makeDirectory (t : FileTree) (working : Location) (p : Path) : Except FileFault FileTree := do
  let l ← t.find .entry working p
  match t.entry? l with
  | some _ => .error .alreadyThere
  | none => return t.put l .directory

/-- The tree after an operation that may stop halfway, and the error that stopped it. -/
abbrev Progress := FileTree × Option FileError

/-- Takes a refusal back if a directory is there already. -/
def unlessDirectory (t : FileTree) (working : Location) (p : Path) (fault : FileFault) : Progress :=
  match t.isDirectory working p with
  | .ok true => (t, none)
  | .ok false => (t, some ⟨fault, p⟩)
  | .error e => (t, some e)

/-- Tries to make a directory, with an answer for the case that the one above it is missing. -/
def tryDirectory (t : FileTree) (working : Location) (p : Path) (ifMissing : Progress) : Progress :=
  match t.makeDirectory working p with
  | .ok t => (t, none)
  | .error .missing => ifMissing
  | .error fault => t.unlessDirectory working p fault

/-- Makes the directory of a path, given as a root and the names after it in reverse, with the
directories above it as far as they are missing. -/
def makeDirectoriesUp (t : FileTree) (working : Location) (root : PathRoot) : List Text → Progress
  | [] => t.tryDirectory working ⟨root, []⟩ (t, some ⟨.missing, ⟨root, []⟩⟩)
  | name :: above =>
    let p : Path := ⟨root, (name :: above).reverse⟩
    t.tryDirectory working p
      (match makeDirectoriesUp t working root above with
      | (t, some e) => (t, some e)
      | (t, none) => t.tryDirectory working p (t, some ⟨.missing, p⟩))

/-- Makes a directory and those above it, as far as they are missing. -/
def makeDirectories (t : FileTree) (working : Location) (p : Path) : Progress :=
  t.makeDirectoriesUp working p.root p.names.reverse

/-- Makes the directory of a path, then goes on in the tree with it. -/
def inDirectoryOf (t : FileTree) (working : Location) (p : Path)
    (next : FileTree → Except FileError FileTree) : Progress :=
  match t.makeDirectories working p.parent with
  | (t, some e) => (t, some e)
  | (t, none) =>
    match next t with
    | .ok t => (t, none)
    | .error e => (t, some e)

/-- Writes a file after making its directory. -/
def writeDeep (t : FileTree) (working : Location) (p : Path) (text : Text) : Progress :=
  t.inDirectoryOf working p fun t => t.write working p text

/-- Adds to the end of a file after making its directory. -/
def appendDeep (t : FileTree) (working : Location) (p : Path) (text : Text) : Progress :=
  t.inDirectoryOf working p fun t => t.append working p text

end FileTree

end AnnotatedRoutes
