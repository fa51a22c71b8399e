import S3Manager.Config.Migrate
import S3Manager.Library.Transition
import S3Manager.Library.Utf8
import S3Manager.Python.JsonPrefix

/-! A save that is broken off: what is on the disk after any part of the steps of
`_save_config_internal`, and what the next `load_config(force_reload=True)` makes of it. -/

set_option autoImplicit false

namespace S3Manager.Config

open Python Library

section Files

variable (floats : FloatText) (environ : Environ)

/-- `json.load` on a file opened with `encoding="utf-8"`, for a document that is an object. -/
def readConfig (bytes : List UInt8) : Result Dict :=
  match utf8Decode bytes with
  | none => raise .valueError (lit "'utf-8' codec can't decode the file")
  | some text =>
      match loads floats text with
      | .error exc => .error exc
      | .ok (.obj config) => .ok config
      | .ok _ => raise .typeError (lit "the document does not support item assignment")

/-- The bytes that `json.dump(config, f, indent=2, ensure_ascii=False)` puts into the file. -/
def configBytes (config : Dict) : List UInt8 :=
  utf8Encode (dump floats 0 (.obj config))

/-- The config that `load_config(force_reload=True)` returns for an existing file, also
when the migrated config cannot be written back. -/
def loadForced (bytes : List UInt8) : Result Dict := do
  let config ← readConfig floats bytes
  let (migrated, _) ← migrateConfig environ config
  .ok migrated

end Files

section Steps

/-- How far a call of `_save_config_internal` has come. -/
inductive SaveStage where
  /-- Before `open(CONFIG_FILE, "w")`, which is never reached when the file is read-only. -/
  | checking
  | writing (written : Nat)
  | closed

structure Saving where
  file : List UInt8
  stage : SaveStage

inductive SaveAct where
  | truncate
  /-- Some more bytes reach the disk, at a flush or when the file is closed. -/
  | flush (count : Nat)
  | close

/-- The save ends wherever its steps end: by itself, by an exception in `json.dump` or
in the file system, or with its process. -/
inductive SaveStep (bytes : List UInt8) : Saving → SaveAct → Saving → Prop where
  | truncate {file : List UInt8} :
      SaveStep bytes ⟨file, .checking⟩ .truncate ⟨[], .writing 0⟩
  | flush {file : List UInt8} {written count : Nat} : written + count ≤ bytes.length →
      SaveStep bytes ⟨file, .writing written⟩ (.flush count)
        ⟨file ++ (bytes.drop written).take count, .writing (written + count)⟩
  | close {file : List UInt8} :
      SaveStep bytes ⟨file, .writing bytes.length⟩ .close ⟨file, .closed⟩

/-- No byte has been touched, or the last one is on the disk. -/
def SaveStage.Whole (size : Nat) : SaveStage → Prop
  | .checking | .closed => True
  | .writing written => size ≤ written

/-- The file as the steps so far leave it. -/
def SaveStage.content (previous bytes : List UInt8) : SaveStage → List UInt8
  | .checking => previous
  | .writing written => bytes.take written
  | .closed => bytes

variable {previous bytes : List UInt8} {final : Saving} {trace : List (Saving × SaveAct)}

theorem content_step (state : Saving) (action : SaveAct) (next : Saving)
    (holds : state.file = state.stage.content previous bytes)
    (step : SaveStep bytes state action next) : next.file = next.stage.content previous bytes := by
  cases step with
  | truncate => rfl
  | @flush file written count _ =>
      have kept : file = bytes.take written := holds
      rw [kept]
      exact List.take_add.symm
  | @close file =>
      have kept : file = bytes.take bytes.length := holds
      rw [kept, List.take_length]
      rfl

theorem content_run (run : Execution (SaveStep bytes) ⟨previous, .checking⟩ trace final) :
    final.file = final.stage.content previous bytes :=
  (run.always (@content_step previous bytes) rfl).1

end Steps

section Outcome

variable (floats : FloatText) (environ : Environ) (previous : List UInt8) (new : Dict)

/-- The file is the previous one or that of the new config, and the next load returns
the config that it stands for. -/
def AllOrNothing (file : List UInt8) : Prop :=
  file = previous ∧ (∃ config, loadForced floats environ file = .ok config) ∨
    file = configBytes floats new ∧ ∃ migrated modified,
      migrateConfig environ new = .ok (migrated, modified) ∧
        loadForced floats environ file = .ok migrated

variable {floats environ previous new}

theorem readConfig_configBytes (sound : Json.Sound floats (.obj new)) :
    readConfig floats (configBytes floats new) = .ok new := by
  rw [readConfig, configBytes, utf8Decode_encode]
  simp only [loads_dump sound]

theorem loadForced_ok_iff {bytes : List UInt8} {migrated : Dict} :
    loadForced floats environ bytes = .ok migrated ↔ ∃ config modified,
      readConfig floats bytes = .ok config ∧
        migrateConfig environ config = .ok (migrated, modified) := by
  constructor
  · intro loaded
    obtain ⟨config, read, rest⟩ := bind_eq_ok_iff.mp loaded
    obtain ⟨⟨found, modified⟩, migrates, same⟩ := bind_eq_ok_iff.mp rest
    obtain rfl := Except.ok.inj same
    exact ⟨config, modified, read, migrates⟩
  · rintro ⟨config, modified, read, migrates⟩
    exact bind_eq_ok_iff.mpr ⟨config, read, bind_eq_ok_iff.mpr ⟨(migrated, modified), migrates, rfl⟩⟩

/-- The file of a config that was cut off is not read as any config. -/
theorem whole_of_readConfig {written : Nat} {config : Dict} (sound : Json.Sound floats (.obj new))
    (read : readConfig floats ((configBytes floats new).take written) = .ok config) :
    (configBytes floats new).length ≤ written := by
  unfold readConfig at read
  split at read
  · cases read
  · next text decoded =>
      have bytes := utf8Decode_eq_some_iff.mp decoded
      have within : utf8Encode text <+: configBytes floats new :=
        bytes ▸ List.take_prefix written _
      obtain ⟨rest, cut⟩ := prefix_of_utf8Encode within
      split at read
      · cases read
      · next loaded =>
          obtain rfl := loads_cut sound cut.symm loaded
          rw [List.append_nil] at cut
          have lengths := congrArg List.length bytes
          rw [cut, List.length_take, ← configBytes] at lengths
          omega
      · cases read

/-- A save leaves the previous config or the new one, and the next load returns it,
exactly when it ended before the file was opened for writing or with its last byte on the
disk, and the environment has what the new config lacks. -/
theorem all_or_nothing_iff {final : Saving} {trace : List (Saving × SaveAct)}
    (sound : Json.Sound floats (.obj new))
    (readable : ∃ config, loadForced floats environ previous = .ok config)
    (run : Execution (SaveStep (configBytes floats new)) ⟨previous, .checking⟩ trace final) :
    AllOrNothing floats environ previous new final.file ↔
      final.stage.Whole (configBytes floats new).length ∧ (final.stage = .checking ∨
        ∃ migrated modified, migrateConfig environ new = .ok (migrated, modified)) := by
  have content := content_run run
  have fresh := readConfig_configBytes sound
  have written (migrated : Dict) (modified : Bool)
      (migrates : migrateConfig environ new = .ok (migrated, modified)) :
      AllOrNothing floats environ previous new (configBytes floats new) :=
    .inr ⟨rfl, migrated, modified, migrates, loadForced_ok_iff.mpr ⟨new, modified, fresh, migrates⟩⟩
  have loadable (kept : AllOrNothing floats environ previous new final.file) :
      ∃ config, loadForced floats environ final.file = .ok config := by
    obtain ⟨-, loads⟩ | ⟨-, migrated, -, -, loads⟩ := kept
    · exact loads
    · exact ⟨migrated, loads⟩
  obtain ⟨file, stage⟩ := final
  cases stage with
  | checking =>
      obtain rfl : file = previous := content
      exact ⟨fun _ => ⟨trivial, .inl rfl⟩, fun _ => .inl ⟨rfl, readable⟩⟩
  | closed =>
      obtain rfl : file = configBytes floats new := content
      constructor
      · intro kept
        obtain ⟨config, loads⟩ := loadable kept
        obtain ⟨found, modified, read, migrates⟩ := loadForced_ok_iff.mp loads
        rw [fresh] at read
        obtain rfl := Except.ok.inj read
        exact ⟨trivial, .inr ⟨config, modified, migrates⟩⟩
      · rintro ⟨-, claim | ⟨migrated, modified, migrates⟩⟩
        · cases claim
        · exact written migrated modified migrates
  | writing count =>
      obtain rfl : file = (configBytes floats new).take count := content
      constructor
      · intro kept
        obtain ⟨config, loads⟩ := loadable kept
        obtain ⟨found, modified, read, migrates⟩ := loadForced_ok_iff.mp loads
        have whole := whole_of_readConfig sound read
        rw [List.take_of_length_le whole, fresh] at read
        obtain rfl := Except.ok.inj read
        exact ⟨whole, .inr ⟨config, modified, migrates⟩⟩
      · rintro ⟨whole, claim | ⟨migrated, modified, migrates⟩⟩
        · cases claim
        · have whole : (configBytes floats new).length ≤ count := whole
          dsimp only
          rw [List.take_of_length_le whole]
          exact written migrated modified migrates

/-- Floats of which only zero is used. -/
def zeroFloats : FloatText where
  IsDouble value := value = 0
  text _ := lit "0.0"
  read _ := .finite 0
  literal _ _ := by decide
  exact _ zero := by rw [zero]

/-- A config with the stored secret of one role. -/
def secretConfig : Dict :=
  [(lit "roles", .arr [.obj [(lit "name", .str (lit "backup")),
    (lit "type", .str (lit "credentials")), (lit "access_key_id", .str (lit "AKIA0123456789ABCDEF")),
    (lit "secret_access_key", .str (lit "kept only here"))]])]

theorem secretConfig_sound : Json.Sound zeroFloats (.obj secretConfig) := by
  refine ⟨by decide, ⟨⟨⟨by decide, ?_⟩, trivial⟩, trivial⟩⟩
  exact ⟨trivial, trivial, trivial, trivial, trivial⟩

theorem secretConfig_readable :
    ∃ config, loadForced zeroFloats bareEnviron (configBytes zeroFloats secretConfig) =
      .ok config := by
  obtain ⟨migrated, modified, migrates⟩ := migrate_bare secretConfig
  exact ⟨migrated, loadForced_ok_iff.mpr
    ⟨_, modified, readConfig_configBytes secretConfig_sound, migrates⟩⟩

theorem configBytes_live (floats : FloatText) (config : Dict) : configBytes floats config ≠ [] := by
  obtain ⟨inner, brace⟩ : ∃ inner, dump floats 0 (.obj config) = '{' :: inner := by
    cases config with
    | nil => exact ⟨_, rfl⟩
    | cons field rest => exact ⟨_, by rw [dump]⟩
  intro empty
  have first := utf8EncodeChar_pos '{'
  rw [configBytes, brace, utf8Encode_cons, List.append_eq_nil_iff] at empty
  rw [empty.1] at first
  cases first

/-- A save that comes to its end replaces the file. -/
theorem finished_save :
    AllOrNothing zeroFloats bareEnviron (configBytes zeroFloats secretConfig) []
      (configBytes zeroFloats []) := by
  let previous := configBytes zeroFloats secretConfig
  let bytes := configBytes zeroFloats []
  have opened : SaveStep bytes ⟨previous, .checking⟩ .truncate ⟨[], .writing 0⟩ := .truncate
  have flushed : SaveStep bytes ⟨[], .writing 0⟩ (.flush bytes.length)
      ⟨bytes, .writing bytes.length⟩ := by
    simpa using @SaveStep.flush bytes [] 0 bytes.length (by omega)
  have closed : SaveStep bytes ⟨bytes, .writing bytes.length⟩ .close ⟨bytes, .closed⟩ := .close
  have sound : Json.Sound zeroFloats (.obj []) := ⟨List.nodup_nil, trivial⟩
  exact (all_or_nothing_iff sound secretConfig_readable
    (.snoc (.snoc (.snoc .nil opened) flushed) closed)).mpr ⟨trivial, .inr (migrate_bare [])⟩

/-- A process that dies right after opening the file leaves an empty file. -/
theorem opened_save_loses :
    ¬ ∀ (floats : FloatText) (environ : Environ) (previous : List UInt8) (new : Dict)
        (final : Saving) (trace : List (Saving × SaveAct)), Json.Sound floats (.obj new) →
        (∃ config, loadForced floats environ previous = .ok config) →
        Execution (SaveStep (configBytes floats new)) ⟨previous, .checking⟩ trace final →
        AllOrNothing floats environ previous new final.file := by
  intro always
  have run : Execution (SaveStep (configBytes zeroFloats []))
      ⟨configBytes zeroFloats secretConfig, .checking⟩ _ ⟨[], .writing 0⟩ := .snoc .nil .truncate
  have kept := always zeroFloats bareEnviron _ [] _ _ ⟨List.nodup_nil, trivial⟩
    secretConfig_readable run
  obtain ⟨empty, -⟩ | ⟨empty, -⟩ := kept
  · exact configBytes_live zeroFloats secretConfig empty.symm
  · exact configBytes_live zeroFloats [] empty.symm

end Outcome

end S3Manager.Config
