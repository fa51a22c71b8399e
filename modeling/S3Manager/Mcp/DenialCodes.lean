import Mathlib.Data.Bool.AllAny
import S3Manager.Access.GateErrors
import S3Manager.Library.Segments
import S3Manager.Mcp.Ladder

/-! `raise_storage_permission_mcp` finds out from the text of a denial which check has failed,
and these texts quote the names of roles, buckets and keys. -/

set_option autoImplicit false

namespace S3Manager.Mcp

open Python Utils Access Clients Storage Library

section Casing

variable {unicode : Unicode} {word : Str}

/-- The lower-case forms of sigma as one. -/
def foldSigma (c : Char) : Char :=
  if c = 'ς' then 'σ' else c

/-- `str.lower` goes from character to character. Only the form of a sigma depends on the
characters around it. -/
def LowersByCharacter (unicode : Unicode) : Prop :=
  ∀ first second : Str, (unicode.lower (first ++ second)).map foldSigma =
    (unicode.lower first).map foldSigma ++ (unicode.lower second).map foldSigma

theorem ascii_lowersByCharacter : LowersByCharacter .ascii := fun first second => by
  simp [Unicode.ascii]

/-- An ASCII text without quotes, such as those the classifier looks for. -/
def Keyword (word : Str) : Prop :=
  ∀ c ∈ word, c.toNat < 128 ∧ c ≠ '\''

theorem foldSigma_ascii {c : Char} (ascii : (foldSigma c).toNat < 128) : foldSigma c = c := by
  unfold foldSigma at ascii ⊢
  split
  · next sigma =>
      rw [if_pos sigma] at ascii
      exact absurd ascii (by decide)
  · rfl

theorem infix_fold_iff (keyword : Keyword word) {text : Str} :
    word <:+: text.map foldSigma ↔ word <:+: text := by
  rw [List.infix_map_iff]
  constructor
  · rintro ⟨found, inside, rfl⟩
    have same : found.map foldSigma = found := by
      refine (List.map_congr_left fun c member => ?_).trans (List.map_id found)
      exact foldSigma_ascii (keyword (foldSigma c) (List.mem_map_of_mem member)).1
    rwa [same]
  · intro inside
    refine ⟨word, inside, ((List.map_congr_left fun c member => ?_).trans (List.map_id word)).symm⟩
    unfold foldSigma
    rw [if_neg]
    · rfl
    · rintro rfl
      exact absurd (keyword _ member).1 (by decide)

/-- A word without quotes lies before a quote or behind it, also in lower case. -/
theorem lower_quote_iff (lawful : LowersByCharacter unicode) (keyword : Keyword word)
    {before after : Str} :
    word <:+: unicode.lower (before ++ '\'' :: after) ↔
      word <:+: unicode.lower before ∨ word <:+: unicode.lower after := by
  have quote : unicode.lower ['\''] = ['\''] := by
    rw [unicode.lower_ascii _ (List.forall_mem_singleton.2 (by decide))]
    decide
  have cut : (unicode.lower (before ++ '\'' :: after)).map foldSigma =
      (unicode.lower before).map foldSigma ++ '\'' :: (unicode.lower after).map foldSigma := by
    rw [lawful before, show '\'' :: after = ['\''] ++ after from rfl, lawful ['\''] after, quote]
    rfl
  rw [← infix_fold_iff keyword, cut,
    infix_append_separator_iff fun member => (keyword _ member).2 rfl,
    infix_fold_iff keyword, infix_fold_iff keyword]

/-- What a part of a text mentions, the whole text mentions. -/
theorem lower_infix (lawful : LowersByCharacter unicode) (keyword : Keyword word)
    {part : Str} (before after : Str) (inside : word <:+: unicode.lower part) :
    word <:+: unicode.lower (before ++ (part ++ after)) := by
  rw [← infix_fold_iff keyword] at inside ⊢
  rw [lawful before, lawful part]
  exact List.infix_append_of_infix_right (List.infix_append_of_infix_left inside)

end Casing

section Words

/-- The words by which the classifier knows the denial of a key. -/
def prefixWords : List Str :=
  [lit "allowed_prefixes", lit "prefix access denied", lit "path traversal", lit "invalid path",
    lit "uri keys"]

inductive DenialCheck where
  | role
  | bucket
  | keyPrefix

def DenialCheck.code : DenialCheck → Str
  | .role => lit "ROLE_NOT_ALLOWED"
  | .bucket => lit "BUCKET_NOT_ALLOWED"
  | .keyPrefix => lit "PREFIX_NOT_ALLOWED"

/-- The words that a name in the denial must not bring in. -/
def DenialCheck.words : DenialCheck → List Str
  | .role => lit "bucket" :: prefixWords
  | .bucket => prefixWords
  | .keyPrefix => []

theorem keyword_of_mem {word : Str} (member : word ∈ lit "bucket" :: prefixWords) :
    Keyword word := by
  have all : ∀ word ∈ lit "bucket" :: prefixWords,
      (word.all fun c => c.toNat < 128 ∧ c ≠ '\'') = true := by decide +kernel
  exact List.all_iff_forall_prop.1 (all word member)

variable {unicode : Unicode} {message : Str}

theorem storagePermissionCode_eq : storagePermissionCode unicode message =
    if ∃ word ∈ prefixWords, word <:+: unicode.lower message then DenialCheck.keyPrefix.code
    else if lit "bucket" <:+: unicode.lower message then DenialCheck.bucket.code
    else DenialCheck.role.code := by
  simp [storagePermissionCode, prefixWords, DenialCheck.code, or_assoc]

theorem code_keyPrefix_iff : storagePermissionCode unicode message = DenialCheck.keyPrefix.code ↔
    ∃ word ∈ prefixWords, word <:+: unicode.lower message := by
  rw [storagePermissionCode_eq]
  split
  · next mentions => simp [mentions]
  · next quiet =>
      refine iff_of_false ?_ quiet
      split <;> decide

theorem code_bucket_iff : storagePermissionCode unicode message = DenialCheck.bucket.code ↔
    (∀ word ∈ prefixWords, ¬ word <:+: unicode.lower message) ∧
      lit "bucket" <:+: unicode.lower message := by
  rw [storagePermissionCode_eq]
  split
  · next mentions =>
      obtain ⟨word, member, inside⟩ := mentions
      exact iff_of_false (by decide) fun quiet => quiet.1 word member inside
  · next quiet =>
      have none_ : ∀ word ∈ prefixWords, ¬ word <:+: unicode.lower message :=
        fun word member inside => quiet ⟨word, member, inside⟩
      split
      · next bucket => exact iff_of_true rfl ⟨none_, bucket⟩
      · next other => exact iff_of_false (by decide) fun both => other both.2

theorem code_role_iff : storagePermissionCode unicode message = DenialCheck.role.code ↔
    ∀ word ∈ lit "bucket" :: prefixWords, ¬ word <:+: unicode.lower message := by
  rw [storagePermissionCode_eq, List.forall_mem_cons]
  split
  · next mentions =>
      obtain ⟨word, member, inside⟩ := mentions
      exact iff_of_false (by decide) fun quiet => quiet.2 word member inside
  · next quiet =>
      have none_ : ∀ word ∈ prefixWords, ¬ word <:+: unicode.lower message :=
        fun word member inside => quiet ⟨word, member, inside⟩
      split
      · next bucket => exact iff_of_false (by decide) fun both => both.1 bucket
      · next other => exact iff_of_true rfl ⟨other, none_⟩

end Words

section Denials

/-- The role that `validate_role_access` decides about. -/
def askedRole (role : Option Str) (user : UserDict) : Option Str :=
  match role with
  | some name => some name
  | none => computeDefaultRole user.defaultRole user.allowedRoles

/-- The check of the gate that denies an access, the names that its text shows in front of any
word of its own, and the exception. -/
inductive GateDenial (config : Dict) (role : Option Str) (bucket : Str) (user : UserDict)
    (key : Str) : DenialCheck → List Str → PyError → Prop where
  | role {exc : PyError} : validateRoleAccess role user = .error exc →
      GateDenial config role bucket user key .role (askedRole role user).toList exc
  | bucket {validated : Option Str} {entry : Dict} {allowed : Option (List Json)} {exc : PyError} :
      validateRoleAccess role user = .ok validated → findRole config validated = .ok (some entry) →
      roleAllowedBuckets entry config = .ok allowed →
      checkBucket allowed bucket validated = .error exc →
      GateDenial config role bucket user key .bucket [bucket, showName validated] exc
  | prefixes {validated : Option Str} {entry : Dict} {allowed : Option (List Json)}
      {exc : PyError} :
      validateRoleAccess role user = .ok validated → findRole config validated = .ok (some entry) →
      roleAllowedBuckets entry config = .ok allowed → checkBucket allowed bucket validated = .ok () →
      roleAllowedPrefixes entry = .error exc →
      GateDenial config role bucket user key .keyPrefix [] exc
  | key {validated : Option Str} {entry : Dict} {allowed : Option (List Json)}
      {prefixes : List Json} {exc : PyError} :
      validateRoleAccess role user = .ok validated → findRole config validated = .ok (some entry) →
      roleAllowedBuckets entry config = .ok allowed → checkBucket allowed bucket validated = .ok () →
      roleAllowedPrefixes entry = .ok (some prefixes) →
      checkPrefixes prefixes key validated = .error exc → exc.kind = .permissionError →
      GateDenial config role bucket user key .keyPrefix [] exc

theorem nextRole_kind {name : Option Str} {roles : List Json} {exc : PyError}
    (fails : nextRole name roles = .error exc) : exc.kind = .attributeError := by
  induction roles with
  | nil => cases fails
  | cons entry rest ih =>
      cases entry with
      | obj fields =>
          simp only [nextRole] at fails
          split at fails
          · cases fails
          · exact ih fails
      | null | bool | int | float | str | arr =>
          cases fails
          rfl

theorem findRole_kind {config : Dict} {name : Option Str} {exc : PyError}
    (fails : findRole config name = .error exc) :
    exc.kind = .attributeError ∨ exc.kind = .typeError := by
  unfold findRole at fails
  cases roles : iterate (configRoles config) with
  | ok entries =>
      rw [roles, result_bind_ok] at fails
      exact .inl (nextRole_kind fails)
  | error other =>
      rw [roles, result_bind_error] at fails
      obtain rfl := Except.error.inj fails
      unfold iterate at roles
      split at roles <;> cases roles <;> exact .inr rfl

/-- The gate denies an access exactly when one of its checks does. -/
theorem gate_denial_iff {config : Dict} {role : Option Str} {bucket key : Str} {user : UserDict}
    {exc : PyError} :
    (validateStorageAccess config role bucket user key = .error exc ∧
        exc.kind = .permissionError) ↔
      ∃ check names, GateDenial config role bucket user key check names exc := by
  unfold validateStorageAccess
  constructor
  · rintro ⟨raised, kind⟩
    cases access : validateRoleAccess role user with
    | error other =>
        rw [access, result_bind_error] at raised
        obtain rfl := Except.error.inj raised
        exact ⟨_, _, .role access⟩
    | ok validated =>
    rw [access, result_bind_ok] at raised
    cases found : findRole config validated with
    | error other =>
        rw [found, result_bind_error] at raised
        obtain rfl := Except.error.inj raised
        obtain other | other := findRole_kind found <;> simp [other] at kind
    | ok entry =>
    rw [found, result_bind_ok] at raised
    cases entry with
    | none => cases raised
    | some entry =>
    dsimp only at raised
    cases granted : roleAllowedBuckets entry config with
    | error other =>
        rw [granted, result_bind_error] at raised
        obtain rfl := Except.error.inj raised
        unfold roleAllowedBuckets at granted
        split at granted <;> cases granted
        cases kind
    | ok allowed =>
    rw [granted, result_bind_ok] at raised
    cases bucketCheck : checkBucket allowed bucket validated with
    | error other =>
        rw [bucketCheck, result_bind_error] at raised
        obtain rfl := Except.error.inj raised
        exact ⟨_, _, .bucket access found granted bucketCheck⟩
    | ok =>
    rw [bucketCheck, result_bind_ok] at raised
    cases read : roleAllowedPrefixes entry with
    | error other =>
        rw [read, result_bind_error] at raised
        obtain rfl := Except.error.inj raised
        exact ⟨_, _, .prefixes access found granted bucketCheck read⟩
    | ok prefixes =>
    rw [read, result_bind_ok] at raised
    cases prefixes with
    | none => cases raised
    | some prefixes =>
    dsimp only at raised
    cases keyCheck : checkPrefixes prefixes key validated with
    | error other =>
        rw [keyCheck, result_bind_error] at raised
        obtain rfl := Except.error.inj raised
        exact ⟨_, _, .key access found granted bucketCheck read keyCheck kind⟩
    | ok =>
        rw [keyCheck, result_bind_ok] at raised
        cases raised
  · rintro ⟨check, names, denial⟩
    cases denial with
    | role access =>
        rw [access, result_bind_error]
        exact ⟨rfl, validateRoleAccess_denies exc access⟩
    | bucket access found granted bucketCheck =>
        simp only [access, found, granted, bucketCheck, result_bind_ok, result_bind_error]
        exact ⟨trivial, checkBucket_denies exc bucketCheck⟩
    | prefixes access found granted bucketCheck read =>
        simp only [access, found, granted, bucketCheck, read, result_bind_ok, result_bind_error]
        exact ⟨trivial, roleAllowedPrefixes_denies exc read⟩
    | key access found granted bucketCheck read keyCheck kind =>
        simp only [access, found, granted, bucketCheck, read, keyCheck, result_bind_ok,
          result_bind_error]
        exact ⟨trivial, kind⟩

end Denials

/-- A denial by the gate, or by the lookup of the role that `get_s3_client` makes. -/
inductive Denied (config : Dict) (user : UserDict) : DenialCheck → List Str → PyError → Prop where
  | gate {role : Option Str} {bucket key : Str} {check : DenialCheck} {names : List Str}
      {exc : PyError} : GateDenial config role bucket user key check names exc →
      Denied config user check names exc
  | lookup {name : Option Str} {exc : PyError} : resolveClientRole config name = .error exc →
      exc.kind = .roleNotFoundError → Denied config user .role [showName name] exc

/-- In lower case, none of the names has a word that leads the classifier astray. -/
def Unmistakable (unicode : Unicode) (check : DenialCheck) (names : List Str) : Prop :=
  ∀ name ∈ names, ∀ word ∈ check.words, ¬ word <:+: unicode.lower name

section Texts

variable {unicode : Unicode} {config : Dict} {user : UserDict} {exc : PyError} {word : Str}

/-- An ASCII text without any of the words. -/
def Wordless (words : List Str) (text : Str) : Prop :=
  (∀ c ∈ text, c.toNat < 128) ∧ ∀ word ∈ words, ¬ word <:+: text.map Char.toLower

instance (words : List Str) (text : Str) : Decidable (Wordless words text) :=
  decidable_of_iff ((text.all fun c => c.toNat < 128) = true ∧
    ∀ word ∈ words, ¬ word <:+: text.map Char.toLower) (and_congr_left' List.all_iff_forall_prop)

theorem Wordless.lower {words : List Str} {text : Str} (wordless : Wordless words text)
    (member : word ∈ words) : ¬ word <:+: unicode.lower text := by
  rw [unicode.lower_ascii text wordless.1]
  exact wordless.2 word member

theorem wordless_nil : Wordless (lit "bucket" :: prefixWords) [] := by decide

/-- A name between quotes in a text without words: the words of the text are those of the name. -/
theorem role_code_iff (lawful : LowersByCharacter unicode) {before after name : Str}
    (first : Wordless (lit "bucket" :: prefixWords) before)
    (last : Wordless (lit "bucket" :: prefixWords) after) :
    storagePermissionCode unicode (before ++ '\'' :: (name ++ '\'' :: after)) =
        DenialCheck.role.code ↔ Unmistakable unicode .role [name] := by
  rw [code_role_iff, Unmistakable, List.forall_mem_singleton]
  refine forall₂_congr fun word member => not_congr ?_
  have keyword := keyword_of_mem member
  rw [lower_quote_iff lawful keyword, lower_quote_iff lawful keyword,
    or_iff_right (first.lower member), or_iff_left (last.lower member)]

theorem role_denied {role : Option Str} (denied : validateRoleAccess role user = .error exc) :
    (askedRole role user = none ∧
        exc.message = lit "Access denied: You don't have any allowed roles") ∨
      ∃ name, askedRole role user = some name ∧ exc.message =
        lit "Access denied: You don't have permission to use role '" ++ name ++ ['\''] := by
  unfold validateRoleAccess at denied
  unfold askedRole
  split at denied
  · cases denied
  · dsimp only at denied
    cases role with
    | some name =>
        dsimp only at denied ⊢
        split at denied
        · cases denied
        · obtain rfl := Except.error.inj denied
          exact .inr ⟨name, rfl, rfl⟩
    | none =>
        dsimp only at denied ⊢
        cases default_ : computeDefaultRole user.defaultRole user.allowedRoles with
        | none =>
            rw [default_] at denied
            obtain rfl := Except.error.inj denied
            exact .inl ⟨rfl, rfl⟩
        | some name =>
            rw [default_] at denied
            dsimp only at denied
            split at denied
            · cases denied
            · obtain rfl := Except.error.inj denied
              exact .inr ⟨name, rfl, rfl⟩

theorem validateRoleAccess_code_iff (lawful : LowersByCharacter unicode) {role : Option Str}
    (denied : validateRoleAccess role user = .error exc) :
    storagePermissionCode unicode exc.message = DenialCheck.role.code ↔
      Unmistakable unicode .role (askedRole role user).toList := by
  obtain ⟨nobody, message⟩ | ⟨name, asked, message⟩ := role_denied denied
  · have wordless : Wordless (lit "bucket" :: prefixWords)
        (lit "Access denied: You don't have any allowed roles") := by decide +kernel
    rw [nobody, message, code_role_iff]
    exact iff_of_true (fun word member => wordless.lower member) (by simp [Unmistakable])
  · have quoted : lit "Access denied: You don't have permission to use role '" =
        lit "Access denied: You don't have permission to use role " ++ ['\''] := by decide +kernel
    rw [asked, message, quoted, List.append_assoc, List.append_assoc]
    exact role_code_iff lawful (by decide +kernel) wordless_nil

theorem firstRole_kind {roles : Json} (fails : firstRole roles = .error exc) :
    exc.kind = .typeError := by
  unfold firstRole at fails
  split at fails
  · cases fails
  · cases fails
  · split at fails
    · cases fails
      rfl
    · cases fails

theorem role_not_found {name : Option Str} (denied : resolveClientRole config name = .error exc)
    (kind : exc.kind = .roleNotFoundError) :
    exc.message = lit "Role '" ++ showName name ++ lit "' not found in configuration" := by
  unfold resolveClientRole at denied
  split at denied
  · cases found : findRole config name with
    | error other =>
        rw [found, result_bind_error] at denied
        obtain rfl := Except.error.inj denied
        obtain other | other := findRole_kind found <;> simp [other] at kind
    | ok entry =>
        rw [found, result_bind_ok] at denied
        split at denied
        · cases denied
        · obtain rfl := Except.error.inj denied
          rfl
  · cases first : firstRole (configRoles config) with
    | error other =>
        rw [first, result_bind_error] at denied
        obtain rfl := Except.error.inj denied
        simp [firstRole_kind first] at kind
    | ok role =>
        rw [first, result_bind_ok] at denied
        split at denied
        · split at denied
          · cases denied
          · obtain rfl := Except.error.inj denied
            cases kind
        · cases denied

theorem resolveClientRole_code_iff (lawful : LowersByCharacter unicode) {name : Option Str}
    (denied : resolveClientRole config name = .error exc)
    (kind : exc.kind = .roleNotFoundError) :
    storagePermissionCode unicode exc.message = DenialCheck.role.code ↔
      Unmistakable unicode .role [showName name] := by
  have opened : lit "Role '" = lit "Role " ++ ['\''] := by decide
  have closed : lit "' not found in configuration" =
      '\'' :: lit " not found in configuration" := by decide
  rw [role_not_found denied kind, opened, closed, List.append_assoc, List.append_assoc]
  exact role_code_iff lawful (by decide +kernel) (by decide +kernel)

theorem checkBucket_code_iff (lawful : LowersByCharacter unicode)
    {allowed : Option (List Json)} {bucket : Str} {validated : Option Str}
    (denied : checkBucket allowed bucket validated = .error exc) :
    storagePermissionCode unicode exc.message = DenialCheck.bucket.code ↔
      Unmistakable unicode .bucket [bucket, showName validated] := by
  have message : exc.message = lit "bucket '" ++ bucket ++
      lit "' not in allowed_buckets for role '" ++ showName validated ++ ['\''] := by
    unfold checkBucket at denied
    split at denied
    · cases denied
    · split at denied
      · cases denied
      · obtain rfl := Except.error.inj denied
        rfl
  have opened : lit "bucket '" = lit "bucket " ++ ['\''] := by decide
  have between : lit "' not in allowed_buckets for role '" =
      '\'' :: (lit " not in allowed_buckets for role " ++ ['\'']) := by decide +kernel
  have first : Wordless prefixWords (lit "bucket ") := by decide +kernel
  have middle : Wordless prefixWords (lit " not in allowed_buckets for role ") := by decide +kernel
  have text : exc.message = lit "bucket " ++ '\'' :: (bucket ++
      '\'' :: (lit " not in allowed_buckets for role " ++ '\'' :: (showName validated ++
        '\'' :: []))) := by
    rw [message, opened, between]
    simp only [List.append_assoc, List.cons_append, List.nil_append]
  have known : lit "bucket" <:+: unicode.lower exc.message := by
    rw [text, lower_quote_iff lawful (keyword_of_mem List.mem_cons_self),
      unicode.lower_ascii _ first.1]
    exact .inl (by decide +kernel)
  rw [code_bucket_iff, and_iff_left known, Unmistakable, List.forall_mem_cons,
    List.forall_mem_singleton, text, ← forall₂_and]
  refine forall₂_congr fun word member => ?_
  have keyword := keyword_of_mem (List.mem_cons_of_mem _ member)
  have last : ¬ word <:+: unicode.lower [] :=
    wordless_nil.lower (List.mem_cons_of_mem _ member)
  rw [lower_quote_iff lawful keyword, lower_quote_iff lawful keyword,
    lower_quote_iff lawful keyword, lower_quote_iff lawful keyword,
    or_iff_right (first.lower member), or_iff_right (middle.lower member), or_iff_left last, not_or]

/-- The text of a denied key says so, whatever the key is. -/
theorem denied_prefix_code (lawful : LowersByCharacter unicode) (word before part after : Str)
    (member : word ∈ prefixWords) (ascii : (part.all fun c => c.toNat < 128) = true)
    (inside : word <:+: part.map Char.toLower) (message : exc.message = before ++ (part ++ after)) :
    storagePermissionCode unicode exc.message = DenialCheck.keyPrefix.code := by
  rw [code_keyPrefix_iff, message]
  refine ⟨word, member, lower_infix lawful (keyword_of_mem (List.mem_cons_of_mem _ member)) _ _ ?_⟩
  rwa [unicode.lower_ascii part (List.all_iff_forall_prop.1 ascii)]

theorem roleAllowedPrefixes_code (lawful : LowersByCharacter unicode) {entry : Dict}
    (denied : roleAllowedPrefixes entry = .error exc) :
    storagePermissionCode unicode exc.message = DenialCheck.keyPrefix.code := by
  have message : exc.message = [] ++ (lit "allowed_prefixes must be a list" ++ []) := by
    unfold roleAllowedPrefixes at denied
    split at denied
    · cases denied
    · cases denied
    · obtain rfl := Except.error.inj denied
      decide +kernel
  exact denied_prefix_code lawful (lit "allowed_prefixes") _ _ _ (by decide +kernel)
    (by decide +kernel) (by decide +kernel) message

theorem sanitizePath_message {key : Str} (fails : sanitizePath key = .error exc) :
    ∃ rest, exc.message = lit "Invalid path: " ++ rest := by
  unfold sanitizePath at fails
  split at fails
  · cases fails
  · dsimp only at fails
    split at fails
    · obtain rfl := Except.error.inj fails
      exact ⟨lit "path traversal not allowed", by decide +kernel⟩
    · split at fails
      · obtain rfl := Except.error.inj fails
        exact ⟨lit "contains invalid characters", by decide +kernel⟩
      · cases fails

theorem normalizeAccessKey_code (lawful : LowersByCharacter unicode) {key : Str}
    (denied : normalizeAccessKey key = .error exc) :
    storagePermissionCode unicode exc.message = DenialCheck.keyPrefix.code := by
  unfold normalizeAccessKey at denied
  split at denied
  · cases denied
  split at denied
  · obtain rfl := Except.error.inj denied
    exact denied_prefix_code lawful (lit "uri keys") []
      (lit "Access denied: absolute or URI keys are not allowed") [] (by decide +kernel)
      (by decide +kernel) (by decide +kernel) (List.append_nil _).symm
  split at denied
  · cases denied
  · next other fails =>
      obtain ⟨rest, message⟩ := sanitizePath_message fails
      obtain rfl := Except.error.inj denied
      exact denied_prefix_code lawful (lit "invalid path") (lit "Access denied: ")
        (lit "Invalid path: ") rest (by decide +kernel) (by decide +kernel) (by decide +kernel)
        (congrArg (lit "Access denied: " ++ ·) message)

theorem anyPrefixAllows_kind {key : Str} {prefixes : List Json}
    (fails : anyPrefixAllows key prefixes = .error exc) : exc.kind = .attributeError := by
  induction prefixes with
  | nil => cases fails
  | cons first rest ih =>
      unfold anyPrefixAllows at fails
      cases within : keyWithinAllowedPrefix key first with
      | error other =>
          rw [within, result_bind_error] at fails
          obtain rfl := Except.error.inj fails
          unfold keyWithinAllowedPrefix at within
          split at within
          · cases within
          · split at within
            · cases within
              rfl
            · cases within
      | ok allows =>
          rw [within, result_bind_ok] at fails
          split at fails
          · cases fails
          · exact ih fails

theorem checkPrefixes_code (lawful : LowersByCharacter unicode) {prefixes : List Json} {key : Str}
    {validated : Option Str} (denied : checkPrefixes prefixes key validated = .error exc)
    (kind : exc.kind = .permissionError) :
    storagePermissionCode unicode exc.message = DenialCheck.keyPrefix.code := by
  unfold checkPrefixes at denied
  cases normal : normalizeAccessKey key with
  | error other =>
      rw [normal, result_bind_error] at denied
      obtain rfl := Except.error.inj denied
      exact normalizeAccessKey_code lawful normal
  | ok normal_ =>
  rw [normal, result_bind_ok] at denied
  cases checked : anyPrefixAllows normal_ prefixes with
  | error other =>
      rw [checked, result_bind_error] at denied
      obtain rfl := Except.error.inj denied
      simp [anyPrefixAllows_kind checked] at kind
  | ok within =>
      rw [checked, result_bind_ok] at denied
      split at denied
      · cases denied
      · obtain rfl := Except.error.inj denied
        refine denied_prefix_code lawful (lit "prefix access denied") []
          (lit "prefix access denied: key '") (key ++ (lit "' not under allowed_prefixes for role '" ++
            (showName validated ++ ['\'']))) (by decide +kernel) (by decide +kernel)
          (by decide +kernel) ?_
        simp only [PyError.message, PyError.new, List.append_assoc, List.nil_append]

/-- The code of a denial names the check that failed exactly when no name in its text has a word
of the classifier. -/
theorem denied_code_iff (lawful : LowersByCharacter unicode) {check : DenialCheck}
    {names : List Str} (denied : Denied config user check names exc) :
    storagePermissionCode unicode exc.message = check.code ↔ Unmistakable unicode check names := by
  cases denied with
  | lookup denied kind => exact resolveClientRole_code_iff lawful denied kind
  | gate denial =>
      cases denial with
      | role access => exact validateRoleAccess_code_iff lawful access
      | bucket _ _ _ bucketCheck => exact checkBucket_code_iff lawful bucketCheck
      | prefixes _ _ _ _ read =>
          exact iff_of_true (roleAllowedPrefixes_code lawful read) (by simp [Unmistakable])
      | key _ _ _ _ _ keyCheck kind =>
          exact iff_of_true (checkPrefixes_code lawful keyCheck kind) (by simp [Unmistakable])

end Texts

end S3Manager.Mcp
