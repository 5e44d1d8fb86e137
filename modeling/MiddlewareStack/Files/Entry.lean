/-!
# Files as they are read

What is at a path, and why a text may not be read from it.
-/

namespace MiddlewareStack.Files

/-- Why a file cannot be read or written. -/
inductive Fault where
  | notFound
  | notADirectory
  | isADirectory
  | nameTooLong
  | zeroInPath
  | notUtf8
  /-- Any other reason, in the words of the system. -/
  | system (text : String)
  deriving DecidableEq, Repr

def Fault.message : Fault → String
  | .notFound => "No such file or directory (os error 2)"
  | .notADirectory => "Not a directory (os error 20)"
  | .isADirectory => "Is a directory (os error 21)"
  | .nameTooLong => "File name too long (os error 36)"
  | .zeroInPath => "file name contained an unexpected NUL byte"
  | .notUtf8 => "stream did not contain valid UTF-8"
  | .system text => text

inductive Entry where
  | file (content : ByteArray)
  | directory
  /-- Something that is there and cannot be read. -/
  | unreadable (fault : Fault)
  /-- Nothing that can be reached. -/
  | absent (fault : Fault)

/-- What is there, by path. -/
abbrev View := String → Entry

namespace Entry

def isPresent : Entry → Bool
  | .absent _ => false
  | _ => true

/-- The text of a file. -/
def text : Entry → Except Fault String
  | .file content =>
    match String.fromUTF8? content with
    | some text => .ok text
    | none => .error .notUtf8
  | .directory => .error .isADirectory
  | .unreadable fault => .error fault
  | .absent fault => .error fault

theorem text_toUTF8 (text : String) : (file text.toUTF8).text = .ok text := by
  have decoded : String.fromUTF8? text.toUTF8 = some text := by
    unfold String.fromUTF8?
    exact dif_pos text.isValidUTF8
  simp only [Entry.text, decoded]

theorem text_of_no_text {content : ByteArray} (noText : ∀ text : String, text.toUTF8 ≠ content) :
    (file content).text = .error .notUtf8 := by
  have undecoded : String.fromUTF8? content = none := by
    unfold String.fromUTF8?
    exact dif_neg fun valid => noText (.ofByteArray content valid) rfl
  simp only [Entry.text, undecoded]

end Entry

end MiddlewareStack.Files
