import ChannelWatch.Fault

/-!
# The cache directory

What lies under the cache's path: entries with their names, nothing at all, or something else in the way. A file has an
identity that it keeps while its name or its content changes, so that a writer who holds it open goes on writing to the
same file; bytes written to a file that is no longer in the directory are lost. Times are in nanoseconds.
-/

namespace ChannelWatch.Cache

/-- A file. -/
structure FileData where
  id : Nat
  content : List UInt8
  modified : Int
  deriving DecidableEq

/-- What a name in the directory stands for. -/
inductive Entry
  | file (f : FileData)
  | directory (modified : Int) (children : List (String × Entry))

/-- What lies under the cache's path: `obstructed` tells that some part of the path is a file. -/
inductive Directory
  | obstructed
  | absent
  | present (entries : List (String × Entry))

namespace Entry

/-- When the entry was last modified. -/
def modified : Entry → Int
  | file f => f.modified
  | directory t _ => t

/-- The file that the entry is. -/
def file? : Entry → Option FileData
  | file f => some f
  | directory _ _ => none

/-- The entry is a file. -/
def isFile (e : Entry) : Bool :=
  e.file?.isSome

end Entry

namespace Directory

/-- The entries of the directory, none if it is not there. -/
def entries : Directory → List (String × Entry)
  | present es => es
  | obstructed => []
  | absent => []

/-- What a name stands for. -/
def find? (d : Directory) (name : String) : Option Entry :=
  (d.entries.find? (·.1 = name)).map (·.2)

/-- The file of a name. -/
def file? (d : Directory) (name : String) : Option FileData :=
  (d.find? name).bind Entry.file?

/-- The directory with a name standing for an entry, whatever it stood for before. -/
def insert (d : Directory) (name : String) (e : Entry) : Directory :=
  match d with
  | present es => present (es.filter (·.1 ≠ name) ++ [(name, e)])
  | obstructed => obstructed
  | absent => absent

/-- The directory with a name standing for nothing. -/
def erase (d : Directory) (name : String) : Directory :=
  match d with
  | present es => present (es.filter (·.1 ≠ name))
  | obstructed => obstructed
  | absent => absent

/-- An identity that no file in the directory has. -/
def freshId (d : Directory) : Nat :=
  (d.entries.filterMap (·.2.file?)).foldl (fun n f => max n (f.id + 1)) 0

/-- The names in the directory, or why it cannot be listed. -/
def list (d : Directory) : Except IoFault (List String) :=
  match d with
  | present es => .ok (es.map (·.1))
  | absent => .error .notFound
  | obstructed => .error .notADirectory

/-- The directory with an empty file of a name opened for writing, and the file's identity: a file that is there is
emptied and keeps its own, a new one gets `fresh`. It fails if the name stands for a directory or has no place to be. -/
def create? (d : Directory) (fresh : Nat) (now : Int) (name : String) : Option (Directory × Nat) :=
  match d with
  | present _ =>
    match d.find? name with
    | none => some (d.insert name (.file ⟨fresh, [], now⟩), fresh)
    | some (.file f) => some (d.insert name (.file ⟨f.id, [], now⟩), f.id)
    | some (.directory _ _) => none
  | absent => none
  | obstructed => none

/-- Bytes put into a content at an offset: a gap before them is filled with zeros, and what they do not reach stays. -/
def overwrite (content : List UInt8) (offset : Nat) (bytes : List UInt8) : List UInt8 :=
  content.take offset ++ List.replicate (offset - content.length) 0 ++ bytes ++ content.drop (offset + bytes.length)

/-- The directory after some bytes were written to a file that is held open; no bytes change nothing. -/
def write (d : Directory) (file offset : Nat) (bytes : List UInt8) (now : Int) : Directory :=
  match d with
  | present es =>
    if bytes.isEmpty then present es
    else present (es.map fun e => match e.2 with
      | .file f => if f.id = file then (e.1, .file ⟨f.id, overwrite f.content offset bytes, now⟩) else e
      | .directory _ _ => e)
  | obstructed => obstructed
  | absent => absent

/-- An entry may take the place of what a name stands for: a file that of a file, a directory that of an empty one. -/
def mayReplace : Entry → Option Entry → Bool
  | _, none => true
  | .file _, some (.file _) => true
  | .directory _ _, some (.directory _ []) => true
  | _, some _ => false

/-- The directory after an entry was moved to another name. -/
def rename? (d : Directory) (old new : String) : Option Directory :=
  match d.find? old with
  | some e => if mayReplace e (d.find? new) then some ((d.erase old).insert new e) else none
  | none => none

/-- The directory after the file of a name was removed. -/
def removeFile? (d : Directory) (name : String) : Option Directory :=
  match d.find? name with
  | some (.file _) => some (d.erase name)
  | _ => none

/-- The bytes of the file of a name, or why they cannot be read. -/
def read (d : Directory) (name : String) : Except IoFault (List UInt8) :=
  match d with
  | obstructed => .error .notADirectory
  | absent => .error .notFound
  | present _ =>
    match d.find? name with
    | some (.file f) => .ok f.content
    | some (.directory _ _) => .error .isADirectory
    | none => .error .notFound

theorem find?_erase_self (d : Directory) (name : String) : (d.erase name).find? name = none := by
  cases d <;> simp [erase, find?, entries]

/-- Erasing a name leaves every other one as it was. -/
theorem find?_erase_of_ne (d : Directory) {name other : String} (h : other ≠ name) :
    (d.erase name).find? other = d.find? other := by
  cases d with
  | present es =>
    simp only [erase, find?, entries]
    rw [List.find?_filter]
    congr 2
    funext x
    by_cases hx : x.1 = other <;> simp [hx, h]
  | obstructed => rfl
  | absent => rfl

theorem find?_insert_self (es : List (String × Entry)) (name : String) (e : Entry) :
    ((present es).insert name e).find? name = some e := by
  have h := find?_erase_self (present es) name
  simp only [erase, find?, entries, Option.map_eq_none_iff] at h
  simp only [insert, find?, entries, List.find?_append, h]
  simp

/-- Putting an entry under a name leaves every other one as it was. -/
theorem find?_insert_of_ne (d : Directory) {name other : String} (e : Entry) (h : other ≠ name) :
    (d.insert name e).find? other = d.find? other := by
  cases d with
  | present es =>
    rw [← find?_erase_of_ne (present es) h]
    simp only [insert, erase, find?, entries, List.find?_append]
    cases (es.filter (·.1 ≠ name)).find? (·.1 = other) <;> simp [Ne.symm h]
  | obstructed => rfl
  | absent => rfl

end Directory

end ChannelWatch.Cache
