/-!
Paths of files. Empty components and single dots say nothing and are left out; double dots stay,
since what they mean depends on the directories that are there.
-/

namespace TypeLens.Text

/-- The pieces of a text between the occurrences of a character. -/
def splitOn (c : Char) : List Char → List (List Char)
  | [] => [[]]
  | d :: ds =>
    if d = c then [] :: splitOn c ds
    else
      match splitOn c ds with
      | [] => [[d]]
      | p :: ps => (d :: p) :: ps

def splitString (c : Char) (s : String) : List String := (splitOn c s.toList).map String.ofList

end TypeLens.Text

namespace TypeLens

structure Path where
  /-- The slashes before the first component; paths that have none are relative. -/
  slashes : Nat
  parts : List String
deriving DecidableEq, Repr, Inhabited

namespace Path

/-- The directory in which the program runs. -/
def here : Path := ⟨0, []⟩

def isComponent (s : String) : Bool := s != "" && s != "."

/-- The components of a text between its slashes. -/
def components (s : String) : List String := (Text.splitString '/' s).filter isComponent

/-- Two slashes at the start are not one, but three and more are. -/
def ofString (s : String) : Path :=
  let n := (s.toList.takeWhile (· == '/')).length
  ⟨if n ≤ 2 then n else 1, components s⟩

def render (p : Path) : String :=
  if p.slashes = 0 ∧ p.parts = [] then "."
  else String.ofList (List.replicate p.slashes '/') ++ "/".intercalate p.parts

/-- The second path as seen from the first. -/
def join (p q : Path) : Path := if q.slashes = 0 then ⟨p.slashes, p.parts ++ q.parts⟩ else q

def parent (p : Path) : Path := ⟨p.slashes, p.parts.dropLast⟩

/-- Adds to the last component, if there is one. -/
def addSuffix (p : Path) (suffix : String) : Option Path :=
  p.parts.getLast?.map fun name => ⟨p.slashes, p.parts.dropLast ++ [name ++ suffix]⟩

/-- The path one component down, or up for double dots. -/
def step (p : Path) (part : String) : Path :=
  if part = ".." then
    match p.parts.getLast? with
    | none => if p.slashes = 0 then ⟨0, [".."]⟩ else p
    | some ".." => ⟨p.slashes, p.parts ++ [".."]⟩
    | some _ => p.parent
  else ⟨p.slashes, p.parts ++ [part]⟩

/-- The path without the detours that double dots make. -/
def resolve (p : Path) : Path := p.parts.foldl step ⟨p.slashes, []⟩

end Path

end TypeLens
