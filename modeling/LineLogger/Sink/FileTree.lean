import LineLogger.IoError
import LineLogger.Text.Utf8

namespace LineLogger

/-- The names that lead from the working directory to a file or a directory. -/
abbrev Location := List String

structure FileTree where
  directories : List Location := [[]]
  files : List (Location × Bytes) := []

namespace FileTree

def nameLimit : Nat := 255

def pathLimit : Nat := 4096

def notFound : IoError := ⟨.notFound, "No such file or directory (os error 2)"⟩

def notADirectory : IoError := ⟨.notADirectory, "Not a directory (os error 20)"⟩

def isADirectory : IoError := ⟨.isADirectory, "Is a directory (os error 21)"⟩

def alreadyExists : IoError := ⟨.alreadyExists, "File exists (os error 17)"⟩

def nameTooLong : IoError := ⟨.invalidFilename, "File name too long (os error 36)"⟩

def nulInPath : IoError := ⟨.invalidInput, "file name contained an unexpected NUL byte"⟩

def content? (t : FileTree) (l : Location) : Option Bytes := t.files.lookup l

def content (t : FileTree) (l : Location) : Bytes := (t.content? l).getD []

def isDirectory (t : FileTree) (l : Location) : Bool := t.directories.contains l

def replace (t : FileTree) (l : Location) (b : Bytes) : FileTree :=
  { t with files := (l, b) :: t.files.filter (fun f => f.1 != l) }

def append (t : FileTree) (l : Location) (b : Bytes) : FileTree :=
  t.replace l (t.content l ++ b)

def touch (t : FileTree) (l : Location) : FileTree :=
  match t.content? l with
  | some _ => t
  | none => t.replace l []

/-- One step down, or up or nowhere for the two special names. Only what exists is entered. -/
def enter (t : FileTree) (l : Location) (name : String) : Except IoError Location :=
  if name = "." then .ok l
  else if name = ".." then .ok l.dropLast
  else if nameLimit < name.utf8ByteSize then .error nameTooLong
  else if t.isDirectory (l ++ [name]) then .ok (l ++ [name])
  else if (t.content? (l ++ [name])).isSome then .error notADirectory
  else .error notFound

def enterAll (t : FileTree) (l : Location) : List String → Except IoError Location
  | [] => .ok l
  | name :: names =>
    match t.enter l name with
    | .error e => .error e
    | .ok m => t.enterAll m names

def names (path : String) : List String :=
  ((path.splitToList (· == '/')).filter (· != ""))

def fileAt (t : FileTree) (l : Location) (name : String) : Except IoError Location :=
  if name = "." || name = ".." then .error isADirectory
  else if nameLimit < name.utf8ByteSize then .error nameTooLong
  else if t.isDirectory (l ++ [name]) then .error isADirectory
  else .ok (l ++ [name])

/-- The place of the file that a path names. The directories on the way must exist, the file need
not. -/
def locate (t : FileTree) (path : String) : Except IoError Location :=
  if path.toList.contains '\x00' then .error nulInPath
  else if pathLimit ≤ path.utf8ByteSize then .error nameTooLong
  else if path.isEmpty then .error notFound
  else
    match (names path).reverse with
    | [] => .error isADirectory
    | last :: before =>
      match t.enterAll [] before.reverse with
      | .error e => .error e
      | .ok l =>
        if path.endsWith "/" then .error isADirectory else t.fileAt l last

def openAppend (t : FileTree) (path : String) : Except IoError (FileTree × Location) :=
  (t.locate path).map (fun l => (t.touch l, l))

def read? (t : FileTree) (path : String) : Option Bytes :=
  match t.locate path with
  | .error _ => none
  | .ok l => t.content? l

def write (t : FileTree) (path : String) (b : Bytes) : Except IoError FileTree :=
  (t.locate path).map (fun l => t.replace l b)

def makeAll (t : FileTree) (l : Location) : List String → FileTree × Option IoError
  | [] => (t, none)
  | name :: names =>
    match t.enter l name with
    | .ok m => t.makeAll m names
    | .error e =>
      if e = notFound then
        { t with directories := (l ++ [name]) :: t.directories }.makeAll (l ++ [name]) names
      else (t, some (if e = notADirectory then alreadyExists else e))

def makeMissing (t : FileTree) (l : Location) : List String → FileTree × Option IoError
  | [] => (t, none)
  | name :: names =>
    match t.enter l name with
    | .ok m => t.makeMissing m names
    | .error e =>
      if e = notFound then t.makeAll l (name :: names)
      else (t, some (if e = notADirectory && names.isEmpty then alreadyExists else e))

def obstacle? (t : FileTree) (names : List String) : Option IoError :=
  match t.enterAll [] names with
  | .ok _ => none
  | .error e => some e

/-- Makes a directory and those above it, as far as nothing is in the way. A directory whose name is
followed by a last `.` has to be there already: only those above it are made. -/
def makeDirectory (t : FileTree) (path : String) : FileTree × Option IoError :=
  if path.toList.contains '\x00' then (t, some nulInPath)
  else if pathLimit ≤ path.utf8ByteSize then (t, some nameTooLong)
  else
    match (names path).reverse with
    | "." :: before =>
      if t.obstacle? (names path) = some notFound then
        match t.makeMissing [] (before.dropWhile (· == ".")).tail.reverse with
        | (t, none) => (t, t.obstacle? (names path))
        | failed => failed
      else (t, t.obstacle? (names path))
    | _ => t.makeMissing [] (names path)

end FileTree

end LineLogger
