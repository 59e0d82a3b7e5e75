/-!
# File trees

A tree of named files and folders, with what the files hold. A `Walker` lists everything at and
below a path, each with its own path. `walk` is one that lists a folder before its entries, and
`jsonEntries` keeps of any listing what is named like a JSON file, folders too.
-/

namespace EvmObject

/-- A file or a folder. -/
inductive FileTree where
  | file (text : String)
  /-- A file that cannot be read as text. -/
  | unreadable
  | folder (entries : List (String × FileTree))

namespace FileTree

/-- The tree can have entries. -/
def isFolder : FileTree → Bool
  | folder _ => true
  | _ => false

/-- The entries of a folder; a file has none. -/
def entries : FileTree → List (String × FileTree)
  | folder entries => entries
  | _ => []

/-- The text of a file that can be read. -/
def text? : FileTree → Option String
  | file text => some text
  | _ => none

/-! ## Paths -/

/-- The parts of a path between its separators. -/
def pathParts (path : String) : List String :=
  (path.toList.splitOn '/').map String.ofList

/-- The path of an entry of the folder at a path. -/
def child (path name : String) : String :=
  if path.isEmpty || path.endsWith "/" then path ++ name else s!"{path}/{name}"

/-- The last part of a path that names something: blank parts and single points do not. -/
def lastPart? (path : String) : Option String :=
  ((pathParts path).filter fun part => part != "" && part != ".").getLast?

/-- The name ends like that of a JSON file and has something in front of the ending. -/
def isJsonName (name : String) : Bool :=
  name.endsWith ".json" && name != ".json"

/-- The path names something that is named like a JSON file. -/
def isJsonPath (path : String) : Bool :=
  (lastPart? path).any isJsonName

/-- Follows the parts of a path. `above` holds the folders that lead to the tree, the nearest first.
A blank part and a single point stay in a folder, two points go back to the one above. -/
def follow (above : List FileTree) (tree : FileTree) : List String → Option FileTree
  | [] => some tree
  | part :: rest =>
    if part = "" ∨ part = "." then
      if tree.isFolder then follow above tree rest else none
    else if part = ".." then
      if tree.isFolder then
        match above with
        | [] => follow [] tree rest
        | parent :: above => follow above parent rest
      else none
    else
      match tree.entries.lookup part with
      | none => none
      | some entry => follow (tree :: above) entry rest

/-- What stands at a path; nothing stands at the empty one. -/
def at? (tree : FileTree) (path : String) : Option FileTree :=
  if path.isEmpty then none else follow [] tree (pathParts path)

/-! ## Building -/

/-- Changes what stands at the end of a chain of names; the folders on the way are made as
needed. -/
def alter (change : Option FileTree → FileTree) : List String → Option FileTree → FileTree
  | [], tree? => change tree?
  | name :: rest, tree? =>
    let others := (tree?.map entries).getD []
    folder (others.filter (·.1 != name) ++ [(name, alter change rest (others.lookup name))])

/-- Puts a file with a text at a path, or makes sure of a folder there if there is no text. -/
def put (tree : FileTree) (path : String) (text? : Option String) : FileTree :=
  let names := (pathParts path).filter (· != "")
  match text? with
  | some text => alter (fun _ => file text) names (some tree)
  | none => alter (·.getD (folder [])) names (some tree)

/-! ## Walking -/

/-- Lists what is at and below a path. -/
abbrev Walker : Type := String → FileTree → List (String × FileTree)

/-- A tree and everything below it, each with its path. -/
def walk (path : String) : FileTree → List (String × FileTree)
  | folder entries =>
    (path, folder entries) ::
      entries.attach.flatMap fun entry => walk (child path entry.val.1) entry.val.2
  | leaf => [(path, leaf)]
termination_by tree => sizeOf tree
decreasing_by
  have smaller := List.sizeOf_lt_of_mem entry.property
  have part : sizeOf entry.val.2 < sizeOf entry.val := by
    obtain ⟨⟨name, tree⟩, _⟩ := entry
    simp only [Prod.mk.sizeOf_spec]
    omega
  simp only [folder.sizeOf_spec]
  omega

/-- What is named like a JSON file in a listing. -/
def jsonEntries (listing : List (String × FileTree)) : List (String × FileTree) :=
  listing.filter fun (path, _) => isJsonPath path

/-- Everything at and below a path that is named like a JSON file. -/
def jsonFiles (path : String) (tree : FileTree) : List (String × FileTree) :=
  jsonEntries (tree.walk path)

end FileTree

end EvmObject
