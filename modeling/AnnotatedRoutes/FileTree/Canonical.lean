import AnnotatedRoutes.FileTree.Basic

namespace AnnotatedRoutes

/-- What relative paths and home directories stand for. -/
structure Surroundings where
  working : Location
  /-- The path of the home directory. -/
  home : Text
  /-- The home directories of other accounts. -/
  accounts : List (Text × Text) := []
  deriving DecidableEq

/-- Why a path has no canonical form. -/
inductive PathFault where
  /-- The links on the way lead back to each other. -/
  | linkLoop (path : Path)
  | homeUnknown
  | file (e : FileError)
  deriving DecidableEq

def PathFault.message : PathFault → Text
  | .linkLoop path => "Symlink loop from ".toList ++ Text.quoted path.toText
  | .homeUnknown => "Could not determine home directory.".toList
  | .file e => e.message

namespace Path

/-- The home directory that a name with a tilde in front stands for. -/
def homeOf? (around : Surroundings) (account : Text) : Option Text :=
  if account = [] then some around.home else around.accounts.lookup account

/-- The path with the home directory in place of a tilde at its beginning. -/
def expandHome (around : Surroundings) (p : Path) : Except PathFault Path :=
  match p.root, p.names with
  | .relative, ('~' :: account) :: names =>
    match homeOf? around account with
    | some home => .ok ((ofText home).join ⟨.relative, names⟩)
    | none =>
      if account.contains '\x00' then .error (.file ⟨.nullCharacter, p⟩) else .error .homeUnknown
  | _, _ => .ok p

def ofLocation (l : Location) : Path := ⟨.absolute, l⟩

/-- The path of the directory above. -/
def up (p : Path) : Path :=
  if p.root = .relative ∧ (p.names = [] ∨ p.names.getLast? = some dots) then
    ⟨p.root, p.names ++ [dots]⟩
  else p.parent

/-- Where the names in the target of a link start from, if the link is in a directory. -/
def startOf (directory : Path) (target : Text) : Path :=
  if rootOf target = .relative then directory else ⟨.absolute, []⟩

/-- A path and the pieces of a text that continue it. A text that begins with a slash stands for
itself. -/
def continued (p : Path) : List Text → Path
  | [] :: name :: names => ⟨.absolute, name :: names⟩
  | names => ⟨p.root, p.names ++ names⟩

end Path

namespace FileTree

def linkCount (t : FileTree) : Nat := (t.entries.entries.filter fun e => match e.2 with
  | .link _ => true
  | _ => false).length

/-- One name after another, without a look at the tree. -/
def lexical (here : Location) : List Text → Location
  | [] => here
  | name :: rest =>
    if name = [] || name = Path.dot then lexical here rest
    else if name = Path.dots then lexical here.dropLast rest
    else lexical (here ++ [name]) rest

/-- The location that a path names, links left aside. -/
def locationOf (working : Location) (p : Path) : Location :=
  lexical (if p.root = .relative then working else []) p.names

/-- Follows names and links from a path without links. `opened` are the paths of the links whose
targets are being followed; one of them met again is a loop, and the names from there on stay as
they are. The links that are open at a time have distinct paths, and `depth` need not exceed the
number of these. -/
def follow (t : FileTree) (working : Location) (depth : Nat) (opened : List Path) (here : Path) :
    List Text → Path × Bool
  | [] => (here, true)
  | name :: rest =>
    if name = [] || name = Path.dot then follow t working depth opened here rest
    else if name = Path.dots then follow t working depth opened here.up rest
    else
      let next := { here with names := here.names ++ [name] }
      match t.entry? (locationOf working next) with
      | some (.link target) =>
        if opened.contains next then (next.continued rest, false)
        else match depth with
          | 0 => (next.continued rest, false)
          | depth + 1 =>
            match follow t working depth (next :: opened) (here.startOf target)
              (Text.splitAt '/' target) with
            | (there, true) => follow t working (depth + 1) opened there rest
            | (there, false) => (there.continued rest, false)
      | _ => follow t working depth opened next rest
termination_by names => (depth, names.length)

/-- No more links are open at a time: a link has one absolute path, and one relative path for each
directory above the working directory. -/
def followLimit (t : FileTree) (working : Location) : Nat := t.linkCount * (working.length + 2)

/-- The canonical form of a path. -/
def canonical (t : FileTree) (around : Surroundings) (p : Path) : Except PathFault Path :=
  if p.names.any (·.contains '\x00') then .error (.file ⟨.nullCharacter, p⟩)
  else
    let working := around.working
    let start := if p.root = .relative then Path.here else ⟨.absolute, []⟩
    let (there, complete) := t.follow working (t.followLimit working) [] start p.names
    let path := Path.ofLocation (locationOf working there)
    if complete then .ok path
    else
      match t.stat working path with
      | .error .tooManyLinks => .error (.linkLoop path)
      | _ => .ok path

end FileTree

end AnnotatedRoutes
