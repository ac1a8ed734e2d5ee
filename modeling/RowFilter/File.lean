namespace RowFilter

inductive FileError.Kind
  | notFound
  /-- The content is not text in UTF-8. -/
  | notText
  /-- A directory, or a path that leads through a file. -/
  | other
  deriving DecidableEq, Repr

structure FileError where
  kind : FileError.Kind
  cause : String
  deriving DecidableEq, Repr

def FileError.decode (content : ByteArray) : Except FileError String :=
  match String.fromUTF8? content with
  | some text => .ok text
  | none => .error ⟨.notText, "stream did not contain valid UTF-8"⟩

/-- A file is text exactly if its content is the UTF-8 form of that text. -/
theorem FileError.decode_eq_ok_iff {content : ByteArray} {text : String} :
    decode content = .ok text ↔ content = text.toUTF8 := by
  unfold decode String.fromUTF8?
  by_cases valid : content.IsValidUTF8
  · simp only [valid, dite_true, Except.ok.injEq]
    constructor
    · rintro rfl
      rfl
    · intro h
      exact String.toByteArray_inj.1 h
  · simp only [valid, dite_false, reduceCtorEq, false_iff]
    intro h
    exact valid (h ▸ text.isValidUTF8)

structure Surroundings where
  /-- The text of the file at a path. -/
  read : String → Except FileError String
  /-- Whether a file can be written at a path. -/
  write : String → Except FileError Unit

/-- Files by their paths, which are relative and have no superfluous parts. -/
structure Directory where
  files : List (String × ByteArray)

namespace Directory

def missing : FileError := ⟨.notFound, "No such file or directory (os error 2)"⟩

def isDirectory : FileError := ⟨.other, "Is a directory (os error 21)"⟩

def notDirectory : FileError := ⟨.other, "Not a directory (os error 20)"⟩

/-- The parts of a path that lead somewhere. -/
def parts (path : String) : List String :=
  (path.splitOn "/").filter fun part => part != "" && part != "."

/-- Whether a path stays in the directory. -/
def isInside (path : String) : Bool :=
  path != "" && !path.startsWith "/" && !(parts path).contains ".."

/-- Whether a path asks for a directory by its last part. -/
def asksDirectory (path : String) : Bool :=
  path.endsWith "/" || path.endsWith "/."

def file? (d : Directory) (path : List String) : Option ByteArray :=
  d.files.lookup ("/".intercalate path)

/-- Whether a path leads to the directory itself or to one that holds a file. -/
def holds (d : Directory) (path : List String) : Bool :=
  path.isEmpty || d.files.any fun f => path.isPrefixOf (parts f.1) && path != parts f.1

def read (d : Directory) (path : String) : Except FileError String :=
  if !isInside path then .error missing
  else if d.holds (parts path) then .error isDirectory
  else match d.file? (parts path) with
    | some content => if asksDirectory path then .error notDirectory else FileError.decode content
    | none => .error missing

def write (d : Directory) (path : String) : Except FileError Unit :=
  if !isInside path then .error missing
  else if d.holds (parts path) || asksDirectory path then .error isDirectory
  else if d.holds (parts path).dropLast then .ok ()
  else .error missing

def put (d : Directory) (path content : String) : Directory :=
  let name := "/".intercalate (parts path)
  ⟨(name, content.toUTF8) :: d.files.filter fun f => f.1 != name⟩

def surroundings (d : Directory) : Surroundings := ⟨d.read, d.write⟩

end Directory

end RowFilter
