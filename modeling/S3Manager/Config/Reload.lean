import Mathlib.Logic.Function.Basic
import S3Manager.Config.Migrate
import S3Manager.Library.Transition

/-! `load_config` and one `save_config` under all interleavings of their steps. The
reload holds `_config_lock`, the save does not; both write the file, the cached
config and its modification time. -/

set_option autoImplicit false

namespace S3Manager.Config

open Python Library

inductive FileContent where
  | empty
  | json (config : Dict)
  | unreadable
  deriving DecidableEq

def FileContent.load : FileContent → Result Dict
  | .json config => .ok config
  | .empty | .unreadable => raise .valueError (lit "Expecting value")

/-- `json.dump` to a file that was truncated when it was opened. What another writer
has put there since is written over from the start, and its rest stays when it was
longer; `size` is the length of what `json.dump` writes. -/
def FileContent.dump (size : Dict → Nat) : FileContent → Dict → FileContent
  | .empty, config => .json config
  | .json other, config => if size other ≤ size config then .json config else .unreadable
  | .unreadable, _ => .unreadable

/-- Where a `load_config` call stands while it holds the lock, with its local
variables. From `persisting` to `timing` it is inside `_save_config_internal`. -/
inductive Locked where
  | entered (force : Bool)
  | rechecking (force : Bool) (currentMtime : Nat)
  | reading (currentMtime : Nat)
  | migrating (newConfig : Dict) (currentMtime : Nat)
  | persisting (newConfig : Dict)
  | dumping (newConfig : Dict)
  | caching (newConfig : Dict)
  | timing
  | publishing (newConfig : Dict) (currentMtime : Nat)
  | recording (newConfig : Dict) (currentMtime : Nat)
  | returning

inductive LoadCall where
  | idle
  | checking (force : Bool) (currentMtime : Nat)
  | returning
  | waiting (force : Bool)
  | inside
  | returned (config : Dict)
  | failed (exc : PyError)

inductive SaveCall where
  | idle
  | dumping
  | caching
  | timing
  | done
  deriving DecidableEq

/-- The file with its modification time, the two globals of `config.py`, the lock
with the state of the call that holds it, and all calls. -/
structure Process where
  file : FileContent
  fileMtime : Nat
  cache : Dict
  cacheMtime : Nat
  lock : Option (Nat × Locked)
  loads : Nat → LoadCall
  save : SaveCall

namespace Process

variable (process : Process)

def move (call : Nat) (state : LoadCall) : Process :=
  { process with loads := Function.update process.loads call state }

/-- The holder of the lock goes on inside. -/
def advance (call : Nat) (state : Locked) : Process :=
  { process with lock := some (call, state) }

/-- The holder of the lock gives it up. -/
def leave (call : Nat) (state : LoadCall) : Process :=
  { process.move call state with lock := none }

/-- `force_reload or current_mtime > _config_mtime or not _config_cache` -/
def stale (force : Bool) (currentMtime : Nat) : Bool :=
  force || decide (process.cacheMtime < currentMtime) || process.cache.isEmpty

end Process

inductive Mover where
  | load (call : Nat)
  | save

section Steps

variable (environ : Environ) (size : Dict → Nat) (saved : Dict)

/-- One step of one call; `saved` is the config that is being saved. -/
inductive ReloadStep (process : Process) : Mover → Process → Prop where
  | start {call : Nat} (force : Bool) :
      process.loads call = .idle →
      ReloadStep process (.load call) (process.move call (.checking force process.fileMtime))
  | fresh {call : Nat} {force : Bool} {mtime : Nat} :
      process.loads call = .checking force mtime → process.stale force mtime = false →
      ReloadStep process (.load call) (process.move call .returning)
  | outdated {call : Nat} {force : Bool} {mtime : Nat} :
      process.loads call = .checking force mtime → process.stale force mtime = true →
      ReloadStep process (.load call) (process.move call (.waiting force))
  | answer {call : Nat} :
      process.loads call = .returning →
      ReloadStep process (.load call) (process.move call (.returned process.cache))
  | acquire {call : Nat} {force : Bool} :
      process.loads call = .waiting force → process.lock = none →
      ReloadStep process (.load call) ((process.move call .inside).advance call (.entered force))
  | stat {call : Nat} {force : Bool} :
      process.lock = some (call, .entered force) →
      ReloadStep process (.load call)
        (process.advance call (.rechecking force process.fileMtime))
  | current {call : Nat} {force : Bool} {mtime : Nat} :
      process.lock = some (call, .rechecking force mtime) → process.stale force mtime = false →
      ReloadStep process (.load call) (process.advance call .returning)
  | reload {call : Nat} {force : Bool} {mtime : Nat} :
      process.lock = some (call, .rechecking force mtime) → process.stale force mtime = true →
      ReloadStep process (.load call) (process.advance call (.reading mtime))
  | read {call mtime : Nat} {config : Dict} :
      process.lock = some (call, .reading mtime) → process.file.load = .ok config →
      ReloadStep process (.load call) (process.advance call (.migrating config mtime))
  | readFails {call mtime : Nat} {exc : PyError} :
      process.lock = some (call, .reading mtime) → process.file.load = .error exc →
      ReloadStep process (.load call) (process.leave call (.failed exc))
  | migrate {call mtime : Nat} {config migrated : Dict} :
      process.lock = some (call, .migrating config mtime) →
      migrateConfig environ config = .ok (migrated, true) →
      ReloadStep process (.load call) (process.advance call (.persisting migrated))
  | migrateNothing {call mtime : Nat} {config migrated : Dict} :
      process.lock = some (call, .migrating config mtime) →
      migrateConfig environ config = .ok (migrated, false) →
      ReloadStep process (.load call) (process.advance call (.publishing migrated mtime))
  | migrateFails {call mtime : Nat} {config : Dict} {exc : PyError} :
      process.lock = some (call, .migrating config mtime) →
      migrateConfig environ config = .error exc →
      ReloadStep process (.load call) (process.leave call (.failed exc))
  | truncate {call mtime : Nat} {config : Dict} :
      process.lock = some (call, .persisting config) → process.fileMtime < mtime →
      ReloadStep process (.load call)
        { process.advance call (.dumping config) with file := .empty, fileMtime := mtime }
  | dump {call mtime : Nat} {config : Dict} :
      process.lock = some (call, .dumping config) → process.fileMtime < mtime →
      ReloadStep process (.load call)
        { process.advance call (.caching config) with
          file := process.file.dump size config, fileMtime := mtime }
  | cache {call : Nat} {config : Dict} :
      process.lock = some (call, .caching config) →
      ReloadStep process (.load call) { process.advance call .timing with cache := config }
  | time {call : Nat} :
      process.lock = some (call, .timing) →
      ReloadStep process (.load call)
        { process.advance call .returning with cacheMtime := process.fileMtime }
  | publish {call mtime : Nat} {config : Dict} :
      process.lock = some (call, .publishing config mtime) →
      ReloadStep process (.load call)
        { process.advance call (.recording config mtime) with cache := config }
  | record {call mtime : Nat} {config : Dict} :
      process.lock = some (call, .recording config mtime) →
      ReloadStep process (.load call)
        { process.advance call .returning with cacheMtime := mtime }
  | answerLocked {call : Nat} :
      process.lock = some (call, .returning) →
      ReloadStep process (.load call) (process.leave call (.returned process.cache))
  | saveTruncate {mtime : Nat} :
      process.save = .idle → process.fileMtime < mtime →
      ReloadStep process .save
        { process with save := .dumping, file := .empty, fileMtime := mtime }
  | saveDump {mtime : Nat} :
      process.save = .dumping → process.fileMtime < mtime →
      ReloadStep process .save
        { process with save := .caching, file := process.file.dump size saved, fileMtime := mtime }
  | saveCache :
      process.save = .caching →
      ReloadStep process .save { process with save := .timing, cache := saved }
  | saveTime :
      process.save = .timing →
      ReloadStep process .save { process with save := .done, cacheMtime := process.fileMtime }

/-- A reload that has read a config with missing fields and has not written it back yet. -/
def Locked.Unsaved : Locked → Prop
  | .migrating config _ => ∃ migrated, migrateConfig environ config = .ok (migrated, true)
  | .persisting _ | .dumping _ | .caching _ => True
  | _ => False

/-- The steps that respect the save: no reload reads the file while the save has it
truncated, the save does not start while a reload is about to write its migrated
copy, and no reload publishes another config between the save's publishing of its
config and of the modification time. -/
def Respects (process : Process) : Mover → Prop
  | .load call =>
      match process.lock with
      | some (holder, .reading _) => holder = call → process.save ≠ .dumping
      | some (holder, .publishing config _) =>
          holder = call → process.save = .timing → config = saved
      | _ => True
  | .save =>
      process.save = .idle → ∀ holder state, process.lock = some (holder, state) →
        ¬ state.Unsaved environ

/-- No call has begun. -/
structure Process.AtRest (process : Process) : Prop where
  lock : process.lock = none
  loads : ∀ call, process.loads call = .idle
  save : process.save = .idle

end Steps

section Invariant

variable {environ : Environ} {saved original migrated cached : Dict} {modified : Bool}

/-- A config that some earlier load has returned or would return, or the saved one. -/
def Known (saved migrated cached config : Dict) : Prop :=
  config = saved ∨ config = migrated ∨ config = cached ∧ config ≠ []

/-- A modification time that was read before the save touched the file. -/
def Process.Before (process : Process) (mtime : Nat) : Prop :=
  mtime ≤ process.fileMtime ∧ (process.save ≠ .idle → mtime < process.fileMtime)

/-- What the holder of the lock knows. -/
def Process.Holds (saved original migrated : Dict) (process : Process) : Locked → Prop
  | .entered _ => True
  | .rechecking _ mtime | .reading mtime => mtime ≤ process.fileMtime
  | .migrating config mtime =>
      config = saved ∨
        (config = original ∨ config = migrated) ∧ process.Before mtime ∧
          (process.save = .idle ∨ config = migrated)
  | .persisting config | .caching config => config = migrated ∧ process.save = .idle
  | .dumping config => config = migrated ∧ process.save = .idle ∧ process.file = .empty
  | .timing =>
      process.cache ≠ [] ∧
        (process.save = .timing ∨ process.save = .done → process.cache = saved)
  | .publishing config mtime => config = saved ∨ config = migrated ∧ process.Before mtime
  | .recording config mtime =>
      process.cache ≠ [] ∧
        (config = saved ∧
            (process.save = .timing ∨ process.save = .done → process.cache = saved) ∨
          config = migrated ∧ process.Before mtime)
  | .returning => process.cache ≠ []

/-- What a call outside the lock knows. -/
def Process.Outside (saved migrated cached : Dict) (process : Process) : LoadCall → Prop
  | .returning => process.cache ≠ []
  | .returned config => Known saved migrated cached config
  | .failed _ => False
  | _ => True

def Process.FileOk (saved original migrated : Dict) (process : Process) : Prop :=
  match process.save with
  | .idle => process.file = .json original ∨ process.file = .json migrated ∨
      process.file = .empty ∧ ∃ call config, process.lock = some (call, .dumping config)
  | .dumping => process.file = .empty
  | _ => process.file = .json saved

/-- The saved config is cached, or the next load will look at the file. -/
def Process.CacheOk (saved : Dict) (process : Process) : Prop :=
  match process.save with
  | .timing => process.cache = saved
  | .done => process.cache = saved ∨ process.cacheMtime < process.fileMtime ∨
      ∃ call config mtime, process.lock = some (call, .recording config mtime) ∧
        mtime < process.fileMtime
  | _ => True

structure ReloadInvariant (saved original migrated cached : Dict) (process : Process) : Prop where
  cache : process.cache = [] ∨ Known saved migrated cached process.cache
  holder : ∀ call state, process.lock = some (call, state) → process.loads call = .inside
  holds : ∀ call state, process.lock = some (call, state) →
    process.Holds saved original migrated state
  outside : ∀ call, process.Outside saved migrated cached (process.loads call)
  file : process.FileOk saved original migrated
  settled : process.CacheOk saved

end Invariant

section Frames

variable {saved original migrated cached : Dict} {process next : Process} {call : Nat}

theorem holds_frame (file : next.file = process.file) (mtime : next.fileMtime = process.fileMtime)
    (cache : next.cache = process.cache) (save : next.save = process.save) {state : Locked}
    (holds : process.Holds saved original migrated state) :
    next.Holds saved original migrated state := by
  cases state <;> simp only [Process.Holds, Process.Before, file, mtime, cache, save] at holds ⊢ <;>
    exact holds

theorem outside_frame (cache : process.cache ≠ [] → next.cache ≠ []) {state : LoadCall}
    (outside : process.Outside saved migrated cached state) :
    next.Outside saved migrated cached state := by
  cases state with
  | returning => exact cache outside
  | _ => exact outside

theorem free_of_outside (inside : ∀ holder state, process.lock = some (holder, state) →
      process.loads holder = .inside) (outside : process.loads call ≠ .inside) {holder : Nat}
    {state : Locked} (held : process.lock = some (holder, state)) : holder ≠ call := by
  rintro rfl
  exact outside (inside _ _ held)

/-- A call that moves outside the lock changes nothing shared. -/
theorem invariant_move (holds : ReloadInvariant saved original migrated cached process)
    {state : LoadCall} (outside : process.loads call ≠ .inside)
    (knows : process.Outside saved migrated cached state) :
    ReloadInvariant saved original migrated cached (process.move call state) where
  cache := holds.cache
  holder := by
    intro holder locked held
    have other := free_of_outside holds.holder outside held
    exact (Function.update_of_ne other ..).trans (holds.holder holder locked held)
  holds := fun holder locked held => holds_frame rfl rfl rfl rfl (holds.holds holder locked held)
  outside := by
    intro other
    by_cases same : other = call
    · subst same
      have moved : (process.move other state).loads other = state := Function.update_self ..
      rw [moved]
      exact outside_frame id knows
    · have kept : (process.move call state).loads other = process.loads other :=
        Function.update_of_ne same ..
      rw [kept]
      exact outside_frame id (holds.outside other)
  file := holds.file
  settled := holds.settled

/-- The phases in which the holder answers for the state of the file or of the cache. -/
def Locked.Owes : Locked → Prop
  | .dumping _ | .recording _ _ => True
  | _ => False

theorem fileOk_advance {state later : Locked} (file : process.FileOk saved original migrated)
    (held : process.lock = some (call, state)) (free : ¬ state.Owes) :
    (process.advance call later).FileOk saved original migrated := by
  unfold Process.FileOk at file ⊢
  change match process.save with
    | .idle => _
    | .dumping => _
    | _ => _
  cases save : process.save with
  | idle =>
      rw [save] at file
      obtain first | second | ⟨-, holder, config, dumping⟩ := file
      · exact .inl first
      · exact .inr (.inl second)
      · rw [held] at dumping
        obtain ⟨-, rfl⟩ := Prod.mk.inj (Option.some.inj dumping)
        exact absurd trivial free
  | dumping | caching | timing | done =>
      rw [save] at file
      exact file

theorem cacheOk_advance {state later : Locked} (settled : process.CacheOk saved)
    (held : process.lock = some (call, state)) (free : ¬ state.Owes) :
    (process.advance call later).CacheOk saved := by
  unfold Process.CacheOk at settled ⊢
  change match process.save with
    | .timing => _
    | .done => _
    | _ => _
  cases save : process.save with
  | done =>
      rw [save] at settled
      obtain cached | older | ⟨holder, config, mtime, recording, -⟩ := settled
      · exact .inl cached
      · exact .inr (.inl older)
      · rw [held] at recording
        obtain ⟨-, rfl⟩ := Prod.mk.inj (Option.some.inj recording)
        exact absurd trivial free
  | idle | dumping | caching | timing =>
      rw [save] at settled
      exact settled

theorem invariant_advance (holds : ReloadInvariant saved original migrated cached process)
    {state later : Locked} (held : process.lock = some (call, state)) (free : ¬ state.Owes)
    (knows : process.Holds saved original migrated later) :
    ReloadInvariant saved original migrated cached (process.advance call later) where
  cache := holds.cache
  holder := by
    intro holder locked same
    obtain ⟨rfl, -⟩ := Prod.mk.inj (Option.some.inj same)
    exact holds.holder call state held
  holds := by
    intro holder locked same
    obtain ⟨-, rfl⟩ := Prod.mk.inj (Option.some.inj same)
    exact holds_frame rfl rfl rfl rfl knows
  outside := fun other => outside_frame id (holds.outside other)
  file := fileOk_advance holds.file held free
  settled := cacheOk_advance holds.settled held free

theorem cache_known (holds : ReloadInvariant saved original migrated cached process)
    (visible : process.cache ≠ []) : Known saved migrated cached process.cache :=
  holds.cache.resolve_left visible

theorem cache_of_current {force : Bool} {mtime : Nat} (current : process.stale force mtime = false) :
    process.cache ≠ [] := by
  intro empty
  simp [Process.stale, empty] at current

theorem invariant_acquire (holds : ReloadInvariant saved original migrated cached process)
    (force : Bool) (free : process.lock = none) :
    ReloadInvariant saved original migrated cached
      ((process.move call .inside).advance call (.entered force)) where
  cache := holds.cache
  holder := by
    intro holder locked same
    obtain ⟨rfl, -⟩ := Prod.mk.inj (Option.some.inj same)
    exact Function.update_self ..
  holds := by
    intro holder locked same
    obtain ⟨-, rfl⟩ := Prod.mk.inj (Option.some.inj same)
    trivial
  outside := by
    intro other
    by_cases same : other = call
    · subst same
      have moved : ((process.move other .inside).advance other (.entered force)).loads other =
          .inside := Function.update_self ..
      rw [moved]
      trivial
    · have kept : ((process.move call .inside).advance call (.entered force)).loads other =
          process.loads other := Function.update_of_ne same ..
      rw [kept]
      exact outside_frame id (holds.outside other)
  file := by
    have file := holds.file
    unfold Process.FileOk at file ⊢
    change match process.save with
      | .idle => _
      | .dumping => _
      | _ => _
    cases save : process.save with
    | idle =>
        rw [save] at file
        obtain first | second | ⟨-, holder, config, dumping⟩ := file
        · exact .inl first
        · exact .inr (.inl second)
        · rw [free] at dumping
          cases dumping
    | dumping | caching | timing | done =>
        rw [save] at file
        exact file
  settled := by
    have settled := holds.settled
    unfold Process.CacheOk at settled ⊢
    change match process.save with
      | .timing => _
      | .done => _
      | _ => _
    cases save : process.save with
    | done =>
        rw [save] at settled
        obtain same | older | ⟨holder, config, mtime, recording, -⟩ := settled
        · exact .inl same
        · exact .inr (.inl older)
        · rw [free] at recording
          cases recording
    | idle | dumping | caching | timing =>
        rw [save] at settled
        exact settled

theorem invariant_leave (holds : ReloadInvariant saved original migrated cached process)
    {state : Locked} {result : LoadCall} (held : process.lock = some (call, state))
    (free : ¬ state.Owes) (knows : process.Outside saved migrated cached result) :
    ReloadInvariant saved original migrated cached (process.leave call result) where
  cache := holds.cache
  holder := by
    intro holder locked same
    cases same
  holds := by
    intro holder locked same
    cases same
  outside := by
    intro other
    by_cases same : other = call
    · subst same
      have moved : (process.leave other result).loads other = result := Function.update_self ..
      rw [moved]
      exact outside_frame id knows
    · have kept : (process.leave call result).loads other = process.loads other :=
        Function.update_of_ne same ..
      rw [kept]
      exact outside_frame id (holds.outside other)
  file := by
    have file : (process.advance call .returning).FileOk saved original migrated :=
      fileOk_advance holds.file held free
    unfold Process.FileOk at file ⊢
    change match process.save with
      | .idle => _
      | .dumping => _
      | _ => _
    change match process.save with
      | .idle => _
      | .dumping => _
      | _ => _ at file
    cases save : process.save with
    | idle =>
        rw [save] at file
        obtain first | second | ⟨-, holder, config, dumping⟩ := file
        · exact .inl first
        · exact .inr (.inl second)
        · cases dumping
    | dumping | caching | timing | done =>
        rw [save] at file
        exact file
  settled := by
    have settled : (process.advance call .returning).CacheOk saved :=
      cacheOk_advance holds.settled held free
    unfold Process.CacheOk at settled ⊢
    change match process.save with
      | .timing => _
      | .done => _
      | _ => _
    change match process.save with
      | .timing => _
      | .done => _
      | _ => _ at settled
    cases save : process.save with
    | done =>
        rw [save] at settled
        obtain same | older | ⟨holder, config, mtime, recording, -⟩ := settled
        · exact .inl same
        · exact .inr (.inl older)
        · cases recording
    | idle | dumping | caching | timing =>
        rw [save] at settled
        exact settled

end Frames

end S3Manager.Config
