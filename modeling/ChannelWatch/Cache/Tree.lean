import ChannelWatch.Cache.Directory
import ChannelWatch.Text.Search

/-!
# Changes from outside

What others may do to the cache directory behind the cache's back: put files with any time, make directories, remove
files, or remove everything. A path leads to a place in the directory, given by the names on the way to it; no name at all
is the directory itself. What lies outside the directory is not kept.
-/

namespace ChannelWatch.Cache

/-- What a name stands for among some entries. -/
def named? (entries : List (String × Entry)) (name : String) : Option Entry :=
  (entries.find? (·.1 = name)).map (·.2)

/-- The names lead to a directory. -/
def isDirectoryAt (entries : List (String × Entry)) : List String → Bool
  | [] => true
  | name :: rest =>
    match named? entries name with
    | some (.directory _ children) => isDirectoryAt children rest
    | some (.file _) => false
    | none => false

/-- Where a path leads: to a place in the directory, out of the directory, or nowhere. -/
inductive Place
  | inside (names : List String)
  | outside
  | nowhere

/-- Where the parts of a path lead from a place, whose names are given last first. Only out of a directory leads a way
up. -/
def Place.walk (entries : List (String × Entry)) : List String → List String → Place
  | way, [] => .inside way.reverse
  | way, part :: rest =>
    if part = "" ∨ part = "." then walk entries way rest
    else if part = ".." then
      match way with
      | [] => .outside
      | _ :: up => if isDirectoryAt entries way.reverse then walk entries up rest else .nowhere
    else walk entries (part :: way) rest

/-- The parts of a path between its slashes. -/
def pathParts (path : String) : List String :=
  (Text.splitOn (· = '/') path.toList).map String.ofList

/-- The most bytes of a name. -/
def maxName : Nat :=
  255

/-- Where a path leads. One that begins with a slash does not begin in the directory. -/
def Place.ofPath (entries : List (String × Entry)) (path : String) : Place :=
  let parts := pathParts path
  if path.toList.contains '\x00' ∨ parts.any (maxName < ·.utf8ByteSize) then .nowhere
  else if path.toList.head? = some '/' then .outside
  else walk entries [] parts

/-- The path ends in the name of a file, and not as only that of a directory does. -/
def endsInName (path : String) : Bool :=
  match (pathParts path).getLast? with
  | some last => last ∉ ["", ".", ".."]
  | none => false

/-- The entries with a name standing for something else, or for nothing. -/
def setEntry (entries : List (String × Entry)) (name : String) (e : Option Entry) : List (String × Entry) :=
  entries.filter (·.1 ≠ name) ++ (e.map fun e => (name, e)).toList

/-- A directory whose children have changed: its own time changes when it gains or loses a child. -/
def Entry.withChildren (now modified : Int) (old new : List (String × Entry)) : Entry :=
  .directory (if old.length = new.length then modified else now) new

/-- The entries after a change at a path. `change` tells what takes the place of what is there; directories that are
missing on the way are made if `make` says so. -/
def alter? (make : Bool) (now : Int) (change : Option Entry → Option (Option Entry)) :
    List String → List (String × Entry) → Option (List (String × Entry))
  | [], _ => none
  | [name], entries => (change (named? entries name)).map (setEntry entries name)
  | name :: rest, entries =>
    match named? entries name with
    | some (.directory modified children) =>
      (alter? make now change rest children).map fun new =>
        setEntry entries name (some (.withChildren now modified children new))
    | some (.file _) => none
    | none =>
      if make then (alter? make now change rest []).map fun new => setEntry entries name (some (.directory now new))
      else none

namespace Directory

/-- The directory after a file with a content and a time was put at a path; a file that is there keeps its identity. -/
def put? (d : Directory) (fresh : Nat) (now : Int) (path : String) (content : List UInt8) (modified : Int) :
    Option Directory :=
  match d with
  | present entries =>
    if !endsInName path then none
    else match Place.ofPath entries path with
      | .inside names =>
        (alter? false now (fun
          | none => some (some (.file ⟨fresh, content, modified⟩))
          | some (.file f) => some (some (.file ⟨f.id, content, modified⟩))
          | some (.directory _ _) => none) names entries).map present
      | .outside => some d
      | .nowhere => none
  | absent => none
  | obstructed => none

/-- The directory after one with a time was made at a path, together with those on the way to it. A path that ends in a
point leads only to a directory that is there. -/
def makeDirectory? (d : Directory) (now : Int) (path : String) (modified : Int) : Option Directory :=
  match d with
  | obstructed => none
  | absent | present _ =>
    match Place.ofPath d.entries path with
    | .inside [] => some (present d.entries)
    | .inside names =>
      if (pathParts path).getLast? = some "." ∧ !isDirectoryAt d.entries names then none
      else (alter? true now (fun
        | none => some (some (.directory modified []))
        | some (.directory _ children) => some (some (.directory modified children))
        | some (.file _) => none) names d.entries).map present
    | .outside => some d
    | .nowhere => none

/-- The directory after the file at a path was removed. -/
def removeAt? (d : Directory) (now : Int) (path : String) : Option Directory :=
  match d with
  | present entries =>
    if !endsInName path then none
    else match Place.ofPath entries path with
      | .inside names =>
        (alter? false now (fun
          | some (.file _) => some none
          | some (.directory _ _) => none
          | none => none) names entries).map present
      | .outside => none
      | .nowhere => none
  | absent => none
  | obstructed => none

/-- Nothing is left of the directory. -/
def removeAll? : Directory → Option Directory
  | present _ => some absent
  | absent => none
  | obstructed => none

end Directory

end ChannelWatch.Cache
