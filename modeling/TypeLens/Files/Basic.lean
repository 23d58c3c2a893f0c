import TypeLens.Files.Path
import TypeLens.Table
import TypeLens.Text.Utf8

/-!
The files that a program can read, as a value.
-/

namespace TypeLens

inductive FileNode
  | file (content : List UInt8)
  | dir
deriving DecidableEq, Repr

/-- Files and directories at paths without detours. -/
abbrev Files := Table Path FileNode

/-- Why a file cannot be read. -/
inductive FileError
  | notFound
  | notADirectory
  | isADirectory
  | nameTooLong
  /-- No file has a name with the character zero. -/
  | zeroInName
deriving DecidableEq, Repr

def FileError.message : FileError → String
  | .notFound => "No such file or directory"
  | .notADirectory => "Not a directory"
  | .isADirectory => "Is a directory"
  | .nameTooLong => "File name too long"
  | .zeroInName => "embedded null character"

namespace Files

/-- Roots, the working directory and those above it are always there. -/
def node? (fs : Files) (p : Path) : Option FileNode :=
  if p.parts.all (· == "..") then some .dir else fs.get? p

/-- How many bytes one component of a path can have. -/
def maxNameBytes : Nat := 255

/-- How many bytes a whole path can have. -/
def maxPathBytes : Nat := 4095

/-- Walks from a directory to where the components lead. -/
def walk (fs : Files) (p : Path) : List String → Except FileError FileNode
  | [] =>
    match fs.node? p with
    | some n => .ok n
    | none => .error .notFound
  | part :: parts =>
    match fs.node? p with
    | some .dir =>
      if maxNameBytes < part.utf8ByteSize then .error .nameTooLong
      else walk fs (p.step part) parts
    | some (.file _) => .error .notADirectory
    | none => .error .notFound

def find (fs : Files) (p : Path) : Except FileError FileNode :=
  let name := p.render
  if name.toList.contains '\x00' then .error .zeroInName
  else if maxPathBytes < name.utf8ByteSize then .error .nameTooLong
  else fs.walk ⟨p.slashes, []⟩ p.parts

def read (fs : Files) (p : Path) : Except FileError (List UInt8) :=
  match fs.find p with
  | .ok (.file content) => .ok content
  | .ok .dir => .error .isADirectory
  | .error e => .error e

/-- The directories on the way to a path. -/
def ancestors (p : Path) : List Path :=
  (List.range p.parts.length).map fun n => ⟨p.slashes, p.parts.take n⟩

/-- Makes the directories that a path goes through. -/
def makeParents (fs : Files) (p : Path) : Files :=
  ((ancestors p).map Path.resolve).foldl
    (fun fs d => if (fs.node? d).isNone then fs.put d .dir else fs) fs

def write (fs : Files) (p : Path) (content : List UInt8) : Files :=
  (fs.makeParents p).put p.resolve (.file content)

def mkdir (fs : Files) (p : Path) : Files := (fs.makeParents p).put p.resolve .dir

def delete (fs : Files) (p : Path) : Files := fs.filter (·.1 ≠ p.resolve)

end Files

/-- Carriage returns, with the line feeds that follow them, become line feeds. -/
def unifyLines : List Char → List Char
  | [] => []
  | '\r' :: '\n' :: cs => '\n' :: unifyLines cs
  | c :: cs => (if c = '\r' then '\n' else c) :: unifyLines cs

end TypeLens
