import Mathlib.Logic.Function.Basic
import S3Manager.Clients.CacheRuns

/-! `get_s3_client` and `update_config` under all interleavings of their atomic
steps. The cache is read outside the lock as well, everything else on it happens
inside; a save is published before the cache is cleared. -/

set_option autoImplicit false

namespace S3Manager.Clients

open Python Access Library

/-- Where one call stands. The phases from `locked` to `inserted`, and
`clearing` and `cleared`, are those with the lock held. -/
inductive Phase (env : BuildEnv) where
  | idle
  | looking (roleName : Option Str)
  | waiting (roleName : Option Str)
  | locked (roleName : Option Str)
  | missed (roleName : Option Str)
  | configured (roleName : Option Str) (config : Dict)
  | built (roleName : Option Str) (client : S3Client env)
  | inserted (roleName : Option Str) (client : S3Client env)
  | returned (roleName : Option Str) (client : S3Client env)
  | raised (exc : PyError)
  | saving (config : Dict)
  | saved (config : Dict)
  | clearing (config : Dict)
  | cleared (config : Dict)
  | done (config : Dict)

namespace Phase

variable {env : BuildEnv}

def holdsLock : Phase env → Bool
  | .locked _ | .missed _ | .configured _ _ | .built _ _ | .inserted _ _ => true
  | .clearing _ | .cleared _ => true
  | _ => false

/-- A build in progress, from the read of the config on. -/
def building : Phase env → Bool
  | .configured _ _ | .built _ _ | .inserted _ _ => true
  | _ => false

/-- The config an `update_config` run has published. -/
def savedConfig : Phase env → Option Dict
  | .saved config | .clearing config | .cleared config | .done config => some config
  | _ => none

/-- The config of a run that has cleared the cache already. -/
def clearedConfig : Phase env → Option Dict
  | .cleared config | .done config => some config
  | _ => none

end Phase

/-- The process: the last saved config, the client cache, the holder of
`_s3_clients_lock`, and every call by its number. -/
structure Process (env : BuildEnv) where
  config : Dict
  cache : List (Str × S3Client env)
  lock : Option Nat
  calls : Nat → Phase env

section Steps

variable {env : BuildEnv}

def Process.start (config : Dict) : Process env where
  config := config
  cache := []
  lock := none
  calls := fun _ => .idle

def Process.move (process : Process env) (call : Nat) (phase : Phase env) : Process env :=
  { process with calls := Function.update process.calls call phase }

/-- One atomic step of one call. -/
inductive SaveStep (process : Process env) (call : Nat) : Process env → Prop where
  | startGet (roleName : Option Str) :
      process.calls call = .idle → SaveStep process call (process.move call (.looking roleName))
  | startUpdate (config : Dict) :
      process.calls call = .idle → SaveStep process call (process.move call (.saving config))
  | fastHit {roleName : Option Str} {client : S3Client env} :
      process.calls call = .looking roleName →
      Assoc.get? process.cache (cacheKey roleName) = some client →
      SaveStep process call (process.move call (.returned roleName client))
  | fastMiss {roleName : Option Str} :
      process.calls call = .looking roleName →
      Assoc.get? process.cache (cacheKey roleName) = none →
      SaveStep process call (process.move call (.waiting roleName))
  | acquire {roleName : Option Str} :
      process.calls call = .waiting roleName → process.lock = none →
      SaveStep process call { process.move call (.locked roleName) with lock := some call }
  | lockedHit {roleName : Option Str} {client : S3Client env} :
      process.calls call = .locked roleName →
      Assoc.get? process.cache (cacheKey roleName) = some client →
      SaveStep process call { process.move call (.returned roleName client) with lock := none }
  | lockedMiss {roleName : Option Str} :
      process.calls call = .locked roleName →
      Assoc.get? process.cache (cacheKey roleName) = none →
      SaveStep process call (process.move call (.missed roleName))
  | readConfig {roleName : Option Str} :
      process.calls call = .missed roleName →
      SaveStep process call (process.move call (.configured roleName process.config))
  | build {roleName : Option Str} {config role : Dict} {client : S3Client env}
      (aws : Result Unit) :
      process.calls call = .configured roleName config →
      resolveClientRole config roleName = .ok role → buildClient env role aws = .ok client →
      SaveStep process call (process.move call (.built roleName client))
  | unresolved {roleName : Option Str} {config : Dict} {exc : PyError} :
      process.calls call = .configured roleName config →
      resolveClientRole config roleName = .error exc →
      SaveStep process call { process.move call (.raised exc) with lock := none }
  | buildFails {roleName : Option Str} {config role : Dict} {exc : PyError}
      (aws : Result Unit) :
      process.calls call = .configured roleName config →
      resolveClientRole config roleName = .ok role → buildClient env role aws = .error exc →
      SaveStep process call { process.move call (.raised exc) with lock := none }
  | insert {roleName : Option Str} {client : S3Client env} :
      process.calls call = .built roleName client →
      SaveStep process call
        { process.move call (.inserted roleName client) with
          cache := Assoc.set process.cache (cacheKey roleName) client }
  | release {roleName : Option Str} {client : S3Client env} :
      process.calls call = .inserted roleName client →
      SaveStep process call { process.move call (.returned roleName client) with lock := none }
  | save {config : Dict} :
      process.calls call = .saving config →
      SaveStep process call { process.move call (.saved config) with config := config }
  | saveFails {config : Dict} (exc : PyError) :
      process.calls call = .saving config → SaveStep process call (process.move call (.raised exc))
  | acquireClear {config : Dict} :
      process.calls call = .saved config → process.lock = none →
      SaveStep process call { process.move call (.clearing config) with lock := some call }
  | clear {config : Dict} :
      process.calls call = .clearing config →
      SaveStep process call { process.move call (.cleared config) with cache := [] }
  | releaseClear {config : Dict} :
      process.calls call = .cleared config →
      SaveStep process call { process.move call (.done config) with lock := none }

end Steps

section Property

variable {env : BuildEnv}

/-- The configs in force in the states of a trace, and in the state that it leads to. -/
def configsFrom (trace : List (Process env × Nat)) (last : Process env) : List Dict :=
  (trace.map fun visited => visited.1.config) ++ [last.config]

/-- The call has published `saved` in one of the steps of the trace, and these are the configs
in force from then on. -/
def SavedSince (update : Nat) (saved : Dict) (trace : List (Process env × Nat))
    (last : Process env) (configs : List Dict) : Prop :=
  ∃ before state after, trace = before ++ (state, update) :: after ∧
    state.calls update = .saving saved ∧ configs = configsFrom after last ∧
      configs.head? = some saved

/-- The client is that of an entry which one of the configs gives for a role argument with this
key. -/
def BuiltFrom (configs : List Dict) (key : Str) (client : S3Client env) : Prop :=
  ∃ config ∈ configs, ∃ argument, cacheKey argument = key ∧
    resolveClientRole config argument = .ok client.builtFrom

/-- What a build in progress has read and made comes from these configs. -/
def Phase.From (configs : List Dict) : Phase env → Prop
  | .configured _ config => config ∈ configs
  | .built roleName client | .inserted roleName client =>
      BuiltFrom configs (cacheKey roleName) client
  | _ => True

end Property

section Effects

variable {env : BuildEnv} {process next : Process env} {call : Nat} {configs : List Dict}

theorem step_others (taken : SaveStep process call next) {other : Nat} (different : other ≠ call) :
    next.calls other = process.calls other := by
  cases taken <;> exact Function.update_of_ne different ..

/-- A step leaves the lock alone, takes it when it is free, or gives it up. -/
theorem step_lock (taken : SaveStep process call next) :
    next.lock = process.lock ∧ (next.calls call).holdsLock = (process.calls call).holdsLock ∨
      process.lock = none ∧ next.lock = some call ∨
      (process.calls call).holdsLock = true ∧ next.lock = none ∧
        (next.calls call).holdsLock = false := by
  cases taken <;> simp_all [Process.move, Phase.holdsLock]

/-- A config is published by the step that was about to, and is the one in force then. -/
theorem step_saved (taken : SaveStep process call next) {saved : Dict}
    (published : (next.calls call).savedConfig = some saved) :
    (process.calls call).savedConfig = some saved ∨
      process.calls call = .saving saved ∧ next.config = saved := by
  cases taken <;> simp_all [Process.move, Phase.savedConfig]

theorem BuiltFrom.mono {more : List Dict} {key : Str} {client : S3Client env}
    (built : BuiltFrom configs key client) (within : configs ⊆ more) : BuiltFrom more key client := by
  obtain ⟨config, member, argument, same, resolved⟩ := built
  exact ⟨config, within member, argument, same, resolved⟩

theorem Phase.From.mono {more : List Dict} {phase : Phase env} (from_ : phase.From configs)
    (within : configs ⊆ more) : phase.From more := by
  cases phase with
  | configured roleName config => exact within from_
  | built roleName client | inserted roleName client => exact BuiltFrom.mono from_ within
  | _ => trivial

/-- A build reads the config in force, and makes its client from what it has read. -/
theorem step_from (taken : SaveStep process call next) (current : process.config ∈ configs)
    (from_ : (process.calls call).From configs) : (next.calls call).From configs := by
  cases taken with
  | readConfig => simpa [Process.move, Phase.From] using current
  | @build roleName config role client aws phase resolved built =>
      obtain ⟨rfl, -⟩ := buildClient_ok built
      rw [phase] at from_
      have made : BuiltFrom configs (cacheKey roleName) client :=
        ⟨config, from_, roleName, rfl, resolved⟩
      simp only [Process.move, Function.update_self]
      exact made
  | @insert roleName client phase =>
      rw [phase] at from_
      simpa [Process.move, Phase.From] using from_
  | _ => simp [Process.move, Phase.From]

theorem step_cached (taken : SaveStep process call next) {key : Str} {client : S3Client env}
    (found : Assoc.get? next.cache key = some client) :
    Assoc.get? process.cache key = some client ∨
      ∃ roleName, process.calls call = .built roleName client ∧ key = cacheKey roleName := by
  cases taken with
  | @insert roleName inserted phase =>
      by_cases same : key = cacheKey roleName
      · subst same
        obtain rfl : inserted = client := by simpa [Process.move] using found
        exact .inr ⟨roleName, phase, rfl⟩
      · exact .inl ((Assoc.get?_set_ne _ _ same).symm.trans found)
  | clear => simp at found
  | _ => exact .inl found

theorem step_cleared (taken : SaveStep process call next) {saved : Dict}
    (cleared : (next.calls call).clearedConfig = some saved) :
    (process.calls call).clearedConfig = some saved ∨
      (process.calls call).holdsLock = true ∧
        (process.calls call).savedConfig = some saved ∧ next.cache = [] ∧
        (next.calls call).building = false := by
  cases taken <;>
    simp_all [Process.move, Phase.clearedConfig, Phase.holdsLock, Phase.savedConfig, Phase.building]

theorem step_returned (taken : SaveStep process call next) {roleName : Option Str}
    {client : S3Client env} (returned : next.calls call = .returned roleName client) :
    Assoc.get? process.cache (cacheKey roleName) = some client ∨
      process.calls call = .inserted roleName client := by
  cases taken with
  | @fastHit held found _ hit | @lockedHit held found _ hit =>
      obtain ⟨rfl, rfl⟩ : held = roleName ∧ found = client := by
        simpa [Process.move] using returned
      exact .inl hit
  | @release held found phase =>
      obtain ⟨rfl, rfl⟩ : held = roleName ∧ found = client := by
        simpa [Process.move] using returned
      exact .inr phase
  | _ => simp [Process.move] at returned

end Effects

section History

variable {env : BuildEnv} {process next : Process env} {update : Nat} {saved : Dict}
  {trace : List (Process env × Nat)} {configs : List Dict}

theorem configsFrom_snoc (trace : List (Process env × Nat)) (process next : Process env)
    (actor : Nat) :
    configsFrom (trace ++ [(process, actor)]) next = configsFrom trace process ++ [next.config] := by
  rw [configsFrom, List.map_append]
  rfl

theorem SavedSince.later (since : SavedSince update saved trace process configs) (actor : Nat)
    (next : Process env) :
    SavedSince update saved (trace ++ [(process, actor)]) next (configs ++ [next.config]) := by
  obtain ⟨before, state, after, rfl, saving, rfl, first⟩ := since
  refine ⟨before, state, after ++ [(process, actor)], by simp, saving,
    (configsFrom_snoc after process next actor).symm, ?_⟩
  rw [List.head?_append, first]
  rfl

theorem savedSince_now (saving : process.calls update = .saving saved)
    (published : next.config = saved) :
    SavedSince update saved (trace ++ [(process, update)]) next [next.config] :=
  ⟨trace, process, [], rfl, saving, rfl, congrArg some published⟩

end History

section Invariants

variable {env : BuildEnv}

/-- Only the holder of the lock is in a phase that needs it. -/
def MutualExclusion (process : Process env) : Prop :=
  ∀ call, (process.calls call).holdsLock = true → process.lock = some call

/-- Nothing is cached or about to be but clients of these configs. -/
structure FreshFrom (configs : List Dict) (process : Process env) : Prop where
  current : process.config ∈ configs
  cached : ∀ key client, Assoc.get? process.cache key = some client → BuiltFrom configs key client
  building : ∀ call, (process.calls call).From configs

/-- A run that has cleared the cache left no client of a config before its save behind. -/
structure SaveInvariant (trace : List (Process env × Nat)) (process : Process env) : Prop where
  exclusion : MutualExclusion process
  published : ∀ call saved, (process.calls call).savedConfig = some saved →
    ∃ configs, SavedSince call saved trace process configs
  fresh : ∀ call saved, (process.calls call).clearedConfig = some saved →
    ∃ configs, SavedSince call saved trace process configs ∧ FreshFrom configs process

variable {process next : Process env} {call : Nat} {trace : List (Process env × Nat)}
  {configs : List Dict}

theorem exclusion_step (exclusion : MutualExclusion process)
    (taken : SaveStep process call next) : MutualExclusion next := by
  intro other holds
  by_cases same : other = call
  · subst same
    rcases step_lock taken with ⟨kept, unchanged⟩ | ⟨_, acquired⟩ | ⟨_, _, given⟩
    · rw [kept]
      exact exclusion other (unchanged ▸ holds)
    · exact acquired
    · simp [given] at holds
  · rw [step_others taken same] at holds
    have held := exclusion other holds
    rcases step_lock taken with ⟨kept, _⟩ | ⟨free, _⟩ | ⟨holder, _⟩
    · rw [kept]
      exact held
    · simp [free] at held
    · rw [exclusion call holder] at held
      exact absurd (Option.some.inj held).symm same

theorem published_step (published : ∀ call saved, (process.calls call).savedConfig = some saved →
      ∃ configs, SavedSince call saved trace process configs)
    (taken : SaveStep process call next) (other : Nat) (saved : Dict)
    (published' : (next.calls other).savedConfig = some saved) :
    ∃ configs, SavedSince other saved (trace ++ [(process, call)]) next configs := by
  by_cases same : other = call
  · subst same
    rcases step_saved taken published' with before | ⟨saving, current⟩
    · obtain ⟨configs, since⟩ := published other saved before
      exact ⟨_, since.later other next⟩
    · exact ⟨_, savedSince_now saving current⟩
  · rw [step_others taken same] at published'
    obtain ⟨configs, since⟩ := published other saved published'
    exact ⟨_, since.later call next⟩

theorem FreshFrom.step (fresh : FreshFrom configs process) (taken : SaveStep process call next) :
    FreshFrom (configs ++ [next.config]) next where
  current := List.mem_append_right configs List.mem_cons_self
  cached := by
    intro key client found
    refine BuiltFrom.mono ?_ (List.subset_append_left configs [next.config])
    rcases step_cached taken found with before | ⟨roleName, phase, rfl⟩
    · exact fresh.cached key client before
    · have made := fresh.building call
      rw [phase] at made
      exact made
  building := by
    intro other
    refine Phase.From.mono ?_ (List.subset_append_left configs [next.config])
    by_cases same : other = call
    · subst same
      exact step_from taken fresh.current (fresh.building other)
    · rw [step_others taken same]
      exact fresh.building other

theorem from_of_not_building {phase : Phase env} (idle : phase.building = false) :
    phase.From configs := by
  cases phase with
  | configured | built | inserted => cases idle
  | _ => trivial

theorem holdsLock_of_building {phase : Phase env} (building : phase.building = true) :
    phase.holdsLock = true := by
  cases phase <;> simp_all [Phase.building, Phase.holdsLock]

/-- At the moment of the clear nobody else holds the lock, so no build is under way. -/
theorem freshFrom_clear (exclusion : MutualExclusion process)
    (taken : SaveStep process call next) (holder : (process.calls call).holdsLock = true)
    (current : next.config ∈ configs) (empty : next.cache = [])
    (own : (next.calls call).building = false) : FreshFrom configs next where
  current := current
  cached := by simp [empty]
  building := by
    intro other
    refine from_of_not_building ?_
    by_cases same : other = call
    · rw [same, own]
    · rw [step_others taken same, ← Bool.not_eq_true]
      intro building
      have held := exclusion other (holdsLock_of_building building)
      rw [exclusion call holder] at held
      exact absurd (Option.some.inj held).symm same

theorem saveInvariant_step (trace : List (Process env × Nat)) (state : Process env) (actor : Nat)
    (after : Process env) (holds : SaveInvariant trace state) (taken : SaveStep state actor after) :
    SaveInvariant (trace ++ [(state, actor)]) after where
  exclusion := exclusion_step holds.exclusion taken
  published := published_step holds.published taken
  fresh := by
    intro other saved cleared
    by_cases same : other = actor
    · subst same
      rcases step_cleared taken cleared with before | ⟨holder, published, empty, own⟩
      · obtain ⟨configs, since, fresh⟩ := holds.fresh other saved before
        exact ⟨_, since.later other after, fresh.step taken⟩
      · obtain ⟨configs, since⟩ := holds.published other saved published
        exact ⟨_, since.later other after, freshFrom_clear holds.exclusion taken holder
          (List.mem_append_right configs List.mem_cons_self) empty own⟩
    · rw [step_others taken same] at cleared
      obtain ⟨configs, since, fresh⟩ := holds.fresh other saved cleared
      exact ⟨_, since.later actor after, fresh.step taken⟩

theorem saveInvariant_start (config : Dict) :
    SaveInvariant [] (Process.start config : Process env) where
  exclusion := by
    intro call holds
    simp [Process.start, Phase.holdsLock] at holds
  published := by
    intro call saved published
    simp [Process.start, Phase.savedConfig] at published
  fresh := by
    intro call saved cleared
    simp [Process.start, Phase.clearedConfig] at cleared

/-- A call that has not returned a client but of these configs, in a process that has none but
these. -/
def SinceSave (get : Nat) (configs : List Dict) (process : Process env) : Prop :=
  FreshFrom configs process ∧ ∀ roleName client,
    process.calls get = .returned roleName client → BuiltFrom configs (cacheKey roleName) client

theorem sinceSave_step {get : Nat} {actor : Nat} (since : SinceSave get configs process)
    (taken : SaveStep process actor next) : SinceSave get (configs ++ [next.config]) next := by
  obtain ⟨fresh, earlier⟩ := since
  refine ⟨fresh.step taken, fun roleName client returned => ?_⟩
  refine BuiltFrom.mono ?_ (List.subset_append_left configs [next.config])
  by_cases same : get = actor
  · subst same
    rcases step_returned taken returned with found | phase
    · exact fresh.cached _ client found
    · have made := fresh.building get
      rw [phase] at made
      exact made
  · rw [step_others taken same] at returned
    exact earlier roleName client returned

/-- Once an `update_config` run is done, a `get_s3_client` call that starts later returns a client
of the config that the run saved or of one saved after it, in whatever order the steps are
taken. -/
theorem no_old_client_after_save {config saved : Dict} {before after : Process env}
    {earlier later : List (Process env × Nat)} {update get : Nat} {roleName : Option Str}
    {client : S3Client env}
    (reached : Execution SaveStep (Process.start config) earlier before)
    (finished : before.calls update = .done saved) (notStarted : before.calls get = .idle)
    (run : Execution SaveStep before later after)
    (returned : after.calls get = .returned roleName client) :
    ∃ configs, SavedSince update saved (earlier ++ later) after configs ∧
      BuiltFrom configs (cacheKey roleName) client := by
  have holds := reached.history saveInvariant_step (saveInvariant_start config)
  obtain ⟨configs, since, fresh⟩ := holds.fresh update saved (by rw [finished]; rfl)
  have begun : SinceSave get configs before :=
    ⟨fresh, fun roleName client old => by simp [notStarted] at old⟩
  have whole : ∃ configs, SavedSince update saved (earlier ++ later) after configs ∧
      SinceSave get configs after := by
    refine @Execution.history _ _ SaveStep (fun trace process => ∃ configs,
      SavedSince update saved (earlier ++ trace) process configs ∧ SinceSave get configs process)
      ?_ _ _ _ run ?_
    · rintro trace state actor next ⟨configs, since, met⟩ taken
      rw [← List.append_assoc]
      exact ⟨_, since.later actor next, sinceSave_step met taken⟩
    · rw [List.append_nil]
      exact ⟨configs, since, begun⟩
  obtain ⟨configs, since, -, clients⟩ := whole
  exact ⟨configs, since, clients roleName client returned⟩

def archiveClient : S3Client plainEnv where
  builtFrom := archiveEntry
  params := ⟨.ambient, none, none, true, true, none⟩
  built := rfl

theorem execution_save_then_get :
    ∃ (before after : Process plainEnv) (earlier later : List (Process plainEnv × Nat)),
      Execution SaveStep (Process.start []) earlier before ∧
        Execution SaveStep before later after ∧ before.calls 0 = .done twoRolesConfig ∧
        before.calls 1 = .idle ∧ after.calls 1 = .returned none archiveClient := by
  exact ⟨_, _, _, _, .snoc (.snoc (.snoc (.snoc (.snoc .nil
      (@SaveStep.startUpdate _ _ 0 twoRolesConfig rfl)) (@SaveStep.save _ _ 0 _ rfl))
      (@SaveStep.acquireClear _ _ 0 _ rfl rfl)) (@SaveStep.clear _ _ 0 _ rfl))
      (@SaveStep.releaseClear _ _ 0 _ rfl),
    .snoc (.snoc (.snoc (.snoc (.snoc (.snoc (.snoc (.snoc .nil
      (@SaveStep.startGet _ _ 1 none rfl)) (@SaveStep.fastMiss _ _ 1 _ rfl rfl))
      (@SaveStep.acquire _ _ 1 _ rfl rfl)) (@SaveStep.lockedMiss _ _ 1 _ rfl rfl))
      (@SaveStep.readConfig _ _ 1 _ rfl))
      (@SaveStep.build _ _ 1 _ _ archiveEntry archiveClient (.ok ()) rfl rfl rfl))
      (@SaveStep.insert _ _ 1 _ _ rfl)) (@SaveStep.release _ _ 1 _ _ rfl), rfl, rfl, rfl⟩

/-- The first config of the process has no roles at all. -/
theorem no_old_client_after_save_rebuilt :
    ∃ (before after : Process plainEnv) (trace : List (Process plainEnv × Nat)) (configs : List Dict),
      before.calls 0 = .done twoRolesConfig ∧ before.calls 1 = .idle ∧
        after.calls 1 = .returned none archiveClient ∧
        SavedSince 0 twoRolesConfig trace after configs ∧
        BuiltFrom configs (cacheKey none) archiveClient := by
  obtain ⟨before, after, _, _, saved, served, finished, notStarted, returned⟩ :=
    execution_save_then_get
  obtain ⟨configs, since, built⟩ :=
    no_old_client_after_save saved finished notStarted served returned
  exact ⟨before, after, _, configs, finished, notStarted, returned, since, built⟩

end Invariants

end S3Manager.Clients
