import S3Manager.Library.Utf8
import S3Manager.Mcp.Ladder
import S3Manager.Python.JsonText
import S3Manager.Storage.StoreRuns

/-! `read_file` with everything it reads and answers: the tables that tell text from binary
by its name, the sample that decides where the name does not, the texts of the refusals, and
the dictionary of the answer. -/

set_option autoImplicit false

namespace S3Manager.Mcp

open Python Access Storage Library

section Tables

def textExtensionsWhitelist : List Str :=
  [lit "txt", lit "md", lit "rst", lit "json", lit "yaml", lit "yml", lit "toml", lit "xml",
    lit "html", lit "htm", lit "css", lit "scss", lit "less", lit "csv", lit "tsv", lit "ndjson",
    lit "jsonl", lit "log", lit "conf", lit "cfg", lit "ini", lit "env", lit "properties",
    lit "py", lit "js", lit "ts", lit "tsx", lit "jsx", lit "mjs", lit "cjs", lit "vue",
    lit "svelte", lit "sh", lit "bash", lit "zsh", lit "fish", lit "ps1", lit "sql", lit "go",
    lit "rs", lit "rb", lit "java", lit "kt", lit "swift", lit "c", lit "cpp", lit "h",
    lit "hpp", lit "lua", lit "pl", lit "pm", lit "ex", lit "exs", lit "erl", lit "hs",
    lit "clj", lit "scala", lit "graphql", lit "gql", lit "proto"]

def extensionlessTextBasenames : List Str :=
  [lit "readme", lit "license", lit "licence", lit "copying", lit "authors", lit "changelog",
    lit "news", lit "dockerfile", lit "makefile", lit "rakefile", lit "procfile",
    lit "vagrantfile", lit "gitignore", lit "dockerignore", lit "gitattributes"]

def unknownOkToSniff : List Str := [lit "data", lit "out", lit "dump", lit "bak"]

def knownBinaryExtensions : List Str :=
  [lit "png", lit "jpg", lit "jpeg", lit "gif", lit "webp", lit "bmp", lit "ico", lit "svg",
    lit "mp3", lit "mp4", lit "wav", lit "ogg", lit "flac", lit "avi", lit "mov", lit "mkv",
    lit "webm", lit "zip", lit "tar", lit "gz", lit "bz2", lit "xz", lit "7z", lit "rar",
    lit "pdf", lit "doc", lit "docx", lit "xls", lit "xlsx", lit "ppt", lit "pptx", lit "odt",
    lit "ods", lit "odp", lit "exe", lit "dll", lit "so", lit "dylib", lit "bin", lit "iso",
    lit "parquet", lit "orc", lit "avro", lit "feather", lit "pyc", lit "class", lit "o",
    lit "a"]

end Tables

section Classification

variable (unicode : Unicode) (config : Dict)

def basenameOf (path : Str) : Str := unicode.lower (lastPiece '/' path)

/-- `basename.rsplit(".", 1)[-1] if "." in basename else None` -/
def dottedExtension (basename : Str) : Option Str :=
  if '.' ∈ basename then some (lastPiece '.' basename) else none

def hashable : Json → Bool
  | .arr _ | .obj _ => false
  | _ => true

/-- `set(value)` -/
def pySet (value : Json) : Result (List Json) := do
  let items ← iterate value
  if items.all hashable then .ok items else raise .typeError (lit "unhashable type")

def customExtensions : Result (List Json) :=
  pySet (dictGetD config "mcp_text_extensions" (.arr []))

/-- `_classify_text`, with the extension that it returns besides its decision. -/
def classifyText (path : Str) : Result (TextKind × Option Str) :=
  let basename := basenameOf unicode path
  if extensionlessTextBasenames.contains basename then .ok (.extensionless, none)
  else
    match dottedExtension basename with
    | none => .ok (.sniff, none)
    | some ext => do
        let custom ← customExtensions config
        if textExtensionsWhitelist.contains ext || custom.any (fun item => item = .str ext) then
          .ok (.extension, some ext)
        else if knownBinaryExtensions.contains ext then .ok (.binaryKnown, some ext)
        else if unknownOkToSniff.contains ext then .ok (.sniff, some ext)
        else .ok (.sniff, some ext)

/-- `sample[:-cut]` -/
def dropLast (sample : Bytes) (cut : Nat) : Bytes := sample.take (sample.length - cut)

/-- `_is_likely_text_sample` -/
def isLikelyTextSample (sample : Bytes) : Bool :=
  if (sample.take 1024).contains 0 then false
  else if (utf8Decode sample).isSome then true
  else [1, 2, 3].any fun cut => (utf8Decode (dropLast sample cut)).isSome

end Classification

section Answer

/-- How `read_file` came to take the object for text. -/
inductive Detection where
  | forced
  | extension
  | extensionless
  | sniffed
  deriving DecidableEq

structure ReadAnswer where
  content : Str
  encoding : Str
  size : Nat
  detection : Detection
  bucket : Str
  path : Str
  deriving DecidableEq

/-- The lenient decoder, `raw.decode("utf-8", errors="replace")`, and `str` of a float. -/
structure TextRuntime where
  decodeReplacing : Bytes → Str
  floatText : PyFloat → Str

variable (unicode : Unicode) (config : Dict) (runtime : TextRuntime) (token : Token)
  (role : Option Str) (bucket path : Str) (user : UserDict) (forceText : Bool)

def numberText : Json → Str
  | .int value => intText value
  | .bool value => if value then lit "True" else lit "False"
  | .float value => runtime.floatText value
  | _ => []

def fileTooLarge (limit : Json) (size : Nat) : Str :=
  lit "File size " ++ intText size ++ lit " exceeds limit " ++ numberText runtime limit

def knownBinary (size : Nat) (ext : Option Str) : Str :=
  lit "File appears binary (size " ++ intText size ++ lit ", ext ." ++ showName ext ++
    lit "). Use force_text=true if you know better."

def sampledBinary (size : Nat) : Str :=
  lit "File appears binary (size " ++ intText size ++
    lit "). Use force_text=true if you know better."

def undecodable (size : Nat) : Str :=
  lit "File could not be decoded as UTF-8 (size " ++ intText size ++ lit "). Use force_text=true."

/-- The part of `read_file` that finds out whether the object is text. -/
def detectText (size : Nat) : S3Program Detection :=
  if forceText then pure .forced
  else do
    let classified ← S3Program.ofResult (classifyText unicode config path)
    match classified.1 with
    | .binaryKnown =>
        S3Program.ofResult (raiseMcp "BINARY_CONTENT" (knownBinary size classified.2))
    | .extension => pure .extension
    | .extensionless => pure .extensionless
    | .sniff => do
        let sample ← readObjectRangeForRole unicode config role bucket path 0 8191 user
        if isLikelyTextSample sample then pure .sniffed
        else S3Program.ofResult (raiseMcp "BINARY_CONTENT" (sampledBinary size))

def decodeRaw (size : Nat) (raw : Bytes) : Result Str :=
  if forceText then .ok (runtime.decodeReplacing (stripBom raw))
  else
    match utf8Decode (stripBom raw) with
    | some content => .ok content
    | none => raiseMcp "BINARY_CONTENT" (undecodable size)

/-- What follows the HEAD. -/
def respondSized (limit : Json) (size : Nat) : S3Program ReadAnswer := do
  if exceeds limit size then
    S3Program.ofResult (raiseMcp "FILE_TOO_LARGE" (fileTooLarge runtime limit size))
  else do
    let detection ← detectText unicode config role bucket path user forceText size
    let raw ← readObjectForRole unicode config role bucket path user
    let content ← S3Program.ofResult (decodeRaw runtime forceText size raw)
    pure ⟨content, lit "utf-8", size, detection, bucket, path⟩

/-- The HEAD, with the handlers around it. -/
def headSize : S3Program Nat :=
  (headObjectForRole unicode config role bucket path user).mapError fun exc =>
    raiseStoragePermission unicode (raiseFileNotFound (fun _ => lit "Object not found") exc)

/-- The whole tool, after the request is authenticated. -/
def readFileResponse : S3Program ReadAnswer :=
  S3Program.mapError ladder do
    let limit ← S3Program.ofResult (effectiveMax config token)
    let size ← headSize unicode config role bucket path user
    respondSized unicode config runtime role bucket path user forceText limit size

end Answer

section Agreement

variable {unicode : Unicode} {config : Dict} {runtime : TextRuntime} {token : Token}
  {role : Option Str} {bucket path : Str} {user : UserDict} {forceText : Bool}
  {conventions : Conventions} {world after : World} {rules : TextRules}

/-- The rules that stand for the tables, the sampling and the decoders of the source. -/
structure TextRules.Sourced (rules : TextRules) (unicode : Unicode) (config : Dict)
    (runtime : TextRuntime) (path : Str) : Prop where
  classified : ∀ classified, classifyText unicode config path = .ok classified →
    rules.classify path = classified.1
  sampled : rules.isLikelyText = isLikelyTextSample
  decoded : rules.decode = utf8Decode
  replaced : rules.decodeReplacing = runtime.decodeReplacing

theorem detectText_refuses {size : Nat} {detection : Detection}
    (sourced : rules.Sourced unicode config runtime path)
    (ran : (detectText unicode config role bucket path user forceText size).run conventions world =
      (.ok detection, after)) :
    (refuseBinary unicode config rules role bucket path user forceText).run conventions world =
      (.ok (), after) := by
  unfold detectText at ran
  unfold refuseBinary
  cases forceText with
  | true =>
      obtain ⟨-, rfl⟩ := Prod.mk.inj ran
      rfl
  | false =>
      obtain ⟨classified, between, read, rest⟩ := run_bind_ok ran
      obtain ⟨decided, rfl⟩ := Prod.mk.inj read
      rw [if_neg (by simp), sourced.classified classified decided, sourced.sampled]
      cases kind : classified.1 with
      | binaryKnown =>
          rw [kind] at rest
          cases (Prod.mk.inj rest).1
      | extension | extensionless =>
          rw [kind] at rest
          obtain ⟨-, rfl⟩ := Prod.mk.inj rest
          rfl
      | sniff =>
          rw [kind] at rest
          obtain ⟨sample, left, sampled, judged⟩ := run_bind_ok rest
          dsimp only
          rw [run_bind, sampled]
          dsimp only at judged ⊢
          split_ifs at judged with likely
          · obtain ⟨-, rfl⟩ := Prod.mk.inj judged
            rw [if_pos likely]
            rfl
          · cases (Prod.mk.inj judged).1

theorem decodeRaw_decodes {size : Nat} {raw : Bytes} {content : Str}
    (sourced : rules.Sourced unicode config runtime path)
    (decoded : decodeRaw runtime forceText size raw = .ok content) :
    (decodeContent rules forceText raw).run conventions world = (.ok content, world) := by
  unfold decodeRaw at decoded
  unfold decodeContent
  cases forceText with
  | true =>
      obtain rfl := Except.ok.inj decoded
      rw [if_pos rfl, sourced.replaced]
      rfl
  | false =>
      rw [if_neg (by simp), sourced.decoded]
      rw [if_neg (by simp)] at decoded
      cases strict : utf8Decode (stripBom raw) with
      | none =>
          rw [strict] at decoded
          cases decoded
      | some text =>
          rw [strict] at decoded
          obtain rfl := Except.ok.inj decoded
          rfl

/-- What the whole tool answers has the content and the size that `readFileAnswer` gives under
the rules of the source, in every world. -/
theorem readFileResponse_answers {answer : ReadAnswer}
    (sourced : rules.Sourced unicode config runtime path)
    (ran : (readFileResponse unicode config runtime token role bucket path user forceText).run
      conventions world = (.ok answer, after)) :
    (readFileAnswer unicode config rules token role bucket path user forceText).run conventions
      world = (.ok ⟨answer.content, answer.size⟩, after) := by
  obtain ⟨limit, start, capped, rest⟩ := run_bind_ok (run_mapError_ok ran)
  obtain ⟨cap, rfl⟩ := Prod.mk.inj capped
  have cap' : effectiveMax config token = .ok limit := cap
  obtain ⟨size, between, headed, rest⟩ := run_bind_ok rest
  unfold respondSized at rest
  split_ifs at rest with tooLarge
  · cases (Prod.mk.inj rest).1
  · obtain ⟨detection, detected, judged, rest⟩ := run_bind_ok rest
    obtain ⟨raw, loaded, read, rest⟩ := run_bind_ok rest
    obtain ⟨content, decoded, decodes, rest⟩ := run_bind_ok rest
    obtain ⟨same, rfl⟩ := Prod.mk.inj decodes
    obtain ⟨shape, rfl⟩ := Prod.mk.inj rest
    obtain rfl := Except.ok.inj shape
    unfold headSize at headed
    rw [readFileAnswer, cap', ofResult_ok_bind, run_mapError, run_bind, headed]
    dsimp only
    rw [readSized, if_neg tooLarge, run_bind, detectText_refuses sourced judged]
    dsimp only
    rw [run_bind, read]
    dsimp only
    rw [run_bind, decodeRaw_decodes sourced same]
    rfl

end Agreement

end S3Manager.Mcp
