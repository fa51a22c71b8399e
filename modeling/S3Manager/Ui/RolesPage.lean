import S3Manager.Python.Json

/-! The roles page of the administrators: every save sends the whole config, as it was shown and
with the list of roles changed. -/

set_option autoImplicit false

namespace S3Manager.Ui

open Python Library

section Model

/-- The fields of a record under these names; those that are undefined are not sent. -/
def pickFields (fields : List String) (record : Dict) : Dict :=
  fields.filterMap fun field =>
    (Assoc.get? record (lit field)).map fun value => (lit field, value)

def writableFields : List String :=
  ["roles", "enable_lazy_loading", "max_file_size", "max_client_load", "disable_deletion",
    "preview_text_extensions", "upload_inline_extensions", "password_min_length",
    "password_min_uppercase", "password_min_lowercase", "password_min_digits",
    "password_min_special", "presigned_url_default_ttl", "presigned_url_max_ttl", "mcp_enabled",
    "mcp_disable_writes", "mcp_text_extensions", "mcp_global_max_read_bytes",
    "mcp_summary_max_keys", "mcp_summary_prefix_scan_pages", "mcp_list_page_size",
    "mcp_list_max_page_size"]

def toWritableConfig (config : Dict) : Dict := pickFields writableFields config

/-- What a role of this type has besides its name, type, description and buckets. -/
def typeFields (roleType : Json) : Option (List String) :=
  if roleType = .str (lit "default") then some []
  else if roleType = .str (lit "profile") then some ["profile_name"]
  else if roleType = .str (lit "assume_role") then some ["role_arn"]
  else if roleType = .str (lit "credentials") then
    some ["access_key_id", "secret_access_key", "region"]
  else if roleType = .str (lit "s3_compatible") then
    some ["access_key_id", "secret_access_key", "region", "endpoint_url", "use_ssl", "verify_ssl",
      "addressing_style"]
  else none

/-- What every role has on the page. -/
def commonFields : List String := ["name", "type", "description", "allowed_buckets"]

/-- It returns nothing for a type that is none of the five. -/
def stripIrrelevantFields (role : Dict) : Option Dict :=
  (typeFields (dictGet role "type")).map fun fields => pickFields (commonFields ++ fields) role

/-- `r.name === name` -/
def hasName (name : Json) : Json → Bool
  | .obj role => dictGet role "name" == name
  | _ => false

/-- The blanks of `trim`. -/
def isJsBlank (c : Char) : Bool :=
  c ∈ ['\t', '\n', '\x0b', '\x0c', '\r', ' '] ||
    c.toNat ∈ [0xa0, 0x1680, 0x2028, 0x2029, 0x202f, 0x205f, 0x3000, 0xfeff] ||
      (0x2000 ≤ c.toNat && c.toNat ≤ 0x200a)

/-- The edited role with the secret that was typed, or else that of the role as it was shown. -/
def mergeSecret (role existing : Dict) : Dict :=
  let typed := match dictGet role "secret_access_key" with
    | .str secret => !secret.all isJsBlank
    | _ => false
  if typed then role
  else
    match Assoc.get? existing (lit "secret_access_key") with
    | some secret => dictSet role "secret_access_key" secret
    | none => Assoc.erase role (lit "secret_access_key")

/-- What can be submitted on the page, with the values of the form. -/
inductive RoleEdit where
  | create (values : Dict)
  | edit (previousName : Str) (values : Dict)
  | delete (targetName : Str)

/-- `onCreate`, `onSubmitRole` and `onConfirmDelete`: the roles that are sent, if any are. -/
def RoleEdit.roles (shown : List Json) : RoleEdit → Option (List Json)
  | create values =>
      if shown.any (hasName (dictGet values "name")) then none
      else (stripIrrelevantFields values).map fun role => shown ++ [.obj role]
  | edit previousName values =>
      match stripIrrelevantFields values, shown.find? (hasName (.str previousName)) with
      | some role, some (.obj existing) =>
          (stripIrrelevantFields (mergeSecret role existing)).map fun cleaned =>
            shown.map fun entry => if hasName (.str previousName) entry then .obj cleaned else entry
      | _, _ => none
  | delete targetName => some (shown.filter fun entry => !hasName (.str targetName) entry)

/-- The config that is sent for one that is shown. -/
def RoleEdit.config (edit : RoleEdit) (shown : Dict) : Option Dict :=
  match dictGet shown "roles" with
  | .arr listed =>
      (edit.roles listed).map fun roles => dictSet (toWritableConfig shown) "roles" (.arr roles)
  | _ => none

end Model

section Browser

/-- A name that a JavaScript object would keep before others, whenever it was set. -/
def IsIndex (name : Str) : Prop := name ≠ [] ∧ name.all Char.isDigit = true

instance (name : Str) : Decidable (IsIndex name) := inferInstanceAs (Decidable (_ ∧ _))

/-- Values that JavaScript reads and writes back as they are: integers that a double holds, and
objects whose names are different and keep their order. -/
inductive Portable : Json → Prop where
  | null : Portable .null
  | bool (value : Bool) : Portable (.bool value)
  | int {value : Int} : value.natAbs ≤ 9007199254740991 → Portable (.int value)
  | str (value : Str) : Portable (.str value)
  | arr {items : List Json} : (∀ item ∈ items, Portable item) → Portable (.arr items)
  | obj {fields : Dict} : (fields.map Prod.fst).Nodup → (∀ field ∈ fields, ¬ IsIndex field.1) →
      (∀ field ∈ fields, Portable field.2) → Portable (.obj fields)

/-- `JSON.parse` of what is shown, and `JSON.stringify` for what is sent. -/
structure Browser where
  reread : Json → Json
  keeps : ∀ value, Portable value → reread value = value

def Browser.sends (browser : Browser) (config : Dict) : Dict :=
  config.map fun field => (field.1, browser.reread field.2)

end Browser

section Laws

variable {fields : List String} {record : Dict}

theorem get?_pickFields (record : Dict) (key : Str) : Assoc.get? (pickFields fields record) key =
    if key ∈ fields.map lit then Assoc.get? record key else none := by
  induction fields with
  | nil => rfl
  | cons field rest ih =>
      unfold pickFields at ih ⊢
      rw [List.filterMap_cons]
      cases found : Assoc.get? record (lit field) with
      | none =>
          simp only [Option.map_none]
          rw [ih]
          by_cases here : key = lit field
          · subst here
            simp [found]
          · simp [here]
      | some value =>
          simp only [Option.map_some, Assoc.get?]
          by_cases here : lit field = key
          · subst here
            simp [found]
          · rw [if_neg here, ih]
            simp [Ne.symm here]

theorem dictGet_pickFields {field : String} (record : Dict) (picked : field ∈ fields) :
    dictGet (pickFields fields record) field = dictGet record field := by
  rw [dictGet, get?_pickFields, if_pos (List.mem_map_of_mem picked)]
  rfl

theorem dictGet_dropped {field : String} (record : Dict) (dropped : lit field ∉ fields.map lit) :
    dictGet (pickFields fields record) field = .null := by
  rw [dictGet, get?_pickFields, if_neg dropped]
  rfl

theorem sends_portable (browser : Browser) (portable : ∀ field ∈ record, Portable field.2) :
    browser.sends record = record := by
  unfold Browser.sends
  conv_rhs => rw [← List.map_id record]
  refine List.map_congr_left fun field member => ?_
  rw [browser.keeps field.2 (portable field member)]
  rfl

theorem stripped_common {values role : Dict} (stripped : stripIrrelevantFields values = some role) :
    ∀ field ∈ commonFields, dictGet role field = dictGet values field := by
  obtain ⟨fields, -, rfl⟩ := Option.map_eq_some_iff.mp stripped
  exact fun field member => dictGet_pickFields values (List.mem_append_left fields member)

/-- The form has no field for the prefixes of a role. -/
theorem stripped_prefixes {values role : Dict} (stripped : stripIrrelevantFields values = some role) :
    dictGet role "allowed_prefixes" = .null := by
  obtain ⟨fields, known, rfl⟩ := Option.map_eq_some_iff.mp stripped
  refine dictGet_dropped values ?_
  unfold typeFields at known
  split_ifs at known <;>
    · obtain rfl := Option.some.inj known
      decide

theorem dictGet_erase_ne {role : Dict} {field other : String} (different : lit field ≠ lit other) :
    dictGet (Assoc.erase role (lit other)) field = dictGet role field := by
  rw [dictGet, Assoc.get?_erase_ne _ different, dictGet]

theorem mergeSecret_other {role existing : Dict} {field : String}
    (other : lit field ≠ lit "secret_access_key") :
    dictGet (mergeSecret role existing) field = dictGet role field := by
  unfold mergeSecret
  dsimp only
  split_ifs
  · rfl
  · cases Assoc.get? existing (lit "secret_access_key") with
    | some secret =>
        dsimp only
        rw [dictGet, dictSet, Assoc.get?_set_ne _ _ other, dictGet]
    | none => exact dictGet_erase_ne other

end Laws

end S3Manager.Ui
