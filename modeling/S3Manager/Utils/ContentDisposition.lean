import S3Manager.Library.Percent
import S3Manager.Python.Text

/-! The header that a download is sent with: the file name as ASCII in quotes, and once more
percent-encoded. -/

set_option autoImplicit false

namespace S3Manager.Utils

open Python Library

/-- `filename.encode("ascii", "replace").decode("ascii")` -/
def encodeAsciiReplace (filename : Str) : Str :=
  filename.map fun c => if c.toNat < 128 then c else '?'

def asciiFilename (filename : Str) : Str :=
  (encodeAsciiReplace filename).map fun c => if c = '?' then '_' else c

def utf8Filename (filename : Str) : Str := Percent.encode (utf8Encode filename)

def formatContentDisposition (filename : Str) : Str :=
  lit "attachment; filename=\"" ++ asciiFilename filename ++ lit "\"; filename*=UTF-8''" ++
    utf8Filename filename

section Laws

@[simp] theorem asciiFilename_length (filename : Str) :
    (asciiFilename filename).length = filename.length := by
  simp [asciiFilename, encodeAsciiReplace]

theorem asciiFilename_ascii {filename : Str} {c : Char} (member : c ∈ asciiFilename filename) :
    c.toNat < 128 := by
  simp only [asciiFilename, encodeAsciiReplace, List.mem_map] at member
  obtain ⟨_, ⟨source, -, rfl⟩, rfl⟩ := member
  have mark : '?'.toNat < 128 := by decide
  split_ifs
  all_goals first
    | assumption
    | decide

end Laws

end S3Manager.Utils
