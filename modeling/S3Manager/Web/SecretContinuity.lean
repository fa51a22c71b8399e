import S3Manager.Clients.Build
import S3Manager.Library.Transition
import S3Manager.Web.ConfigLaws

/-! The secrets of the roles over whole sequences of accepted saves. The save reads the
last entry of a name, `get_s3_client` the first one. -/

set_option autoImplicit false

namespace S3Manager.Web

open Python Access Config Library Clients

section Secrets

/-- A secret that is missing, blank, or the marker of `get_config`. -/
def WithoutSecret (role : Dict) : Prop :=
  match dictGet role "secret_access_key" with
  | .str text => NoSecret (strip text)
  | value => value.truthy = false

/-- The secret of an entry as a client would read it. -/
def storedSecret (role : Dict) : Option Str :=
  match dictGet role "secret_access_key" with
  | .str text => if strip text = [] then none else some (strip text)
  | _ => none

instance (role : Dict) : Decidable (WithoutSecret role) := by
  unfold WithoutSecret NoSecret
  cases dictGet role "secret_access_key" <;> exact inferInstance

def usedSecret (role : Dict) : Option Str :=
  if Keyed role then storedSecret role else none

/-- The secret that `get_s3_client` uses for a role name. -/
def secretInForce (config : Dict) (name : Str) : Option Str :=
  match resolveClientRole config (some name) with
  | .ok role => usedSecret role
  | .error _ => none

/-- `current_roles[name]` of `update_config`. -/
def lastNamed (config : Dict) (name : Json) : Option Dict :=
  match iterate (configRoles config) >>= currentRoles, dictKey name with
  | .ok roles, .ok key => currentRole roles key
  | _, _ => none

/-- What becomes of the secret of one role of the request. -/
structure RoleContinues (current role kept : Dict) : Prop where
  keeps : WithoutSecret role → ∀ name, dictGet role "name" = .str name →
    usedSecret kept = secretInForce current name
  replaces : ∀ text, dictGet role "secret_access_key" = .str text → ¬ NoSecret (strip text) →
    usedSecret kept = some (strip text)
  present : ¬ WithoutSecret kept

def ContinuesSecrets (current body saved : Dict) : Prop :=
  List.Forall₂ (fun sent stored => ∀ role, sent = .obj role → Keyed role →
    ∃ kept, stored = .obj kept ∧ Keyed kept ∧ RoleContinues current role kept)
    (configEntries body) (configEntries saved)

/-- The last entry of the name has a secret, the one that is used for the name. -/
def SecretResolves (current role : Dict) : Prop :=
  WithoutSecret role → ∀ last, lastNamed current (dictGet role "name") = some last →
    ¬ WithoutSecret last ∧ ∀ name, dictGet role "name" = .str name →
      storedSecret last = secretInForce current name

def SecretsResolve (current body : Dict) : Prop :=
  ∀ role, .obj role ∈ configEntries body → Keyed role → SecretResolves current role

end Secrets

section Clients

variable {env : BuildEnv} {role : Dict} {params : ClientParams}

theorem storedSecret_of_stripped {secret : Str}
    (stripped : stripValue (dictGet role "secret_access_key") = .ok secret) (live : secret ≠ []) :
    storedSecret role = some secret := by
  unfold storedSecret
  cases stored : dictGet role "secret_access_key" with
  | str text =>
      rw [stored] at stripped
      obtain rfl := Except.ok.inj stripped
      exact if_neg live
  | null | bool | int | float | arr | obj =>
      rw [stored] at stripped
      cases stripped

theorem staticKeys_secret {required trimmedEmpty : Str} {keys : Str × Str}
    (read : staticKeys role required trimmedEmpty = .ok keys) :
    storedSecret role = some keys.2 := by
  unfold staticKeys at read
  dsimp only at read
  split_ifs at read with falsy
  · cases read
  · obtain ⟨accessKeyId, _, rest⟩ := bind_eq_ok_iff.mp read
    obtain ⟨secret, stripped, rest⟩ := bind_eq_ok_iff.mp rest
    split_ifs at rest with empty
    · cases rest
    · obtain rfl := Except.ok.inj rest
      exact storedSecret_of_stripped stripped (by rintro rfl; simp at empty)

/-- What counts as the secret of an entry is what a client built from it uses. -/
theorem usedSecret_of_built (built : createS3ClientFromRole env role = .ok params) :
    usedSecret role = match params.credentials with
      | .static _ secret => some secret
      | _ => none := by
  have keyless {roleType : String} (typed : dictGet role "type" = .str (lit roleType))
      (other : lit roleType ≠ lit "credentials" ∧ lit roleType ≠ lit "s3_compatible") :
      usedSecret role = none := by
    refine if_neg ?_
    rw [Keyed, typed]
    simpa using other
  unfold createS3ClientFromRole at built
  dsimp only at built
  split_ifs at built with ambient profile unnamed assumed missing static compatible keyless' noEndpoint
  · obtain rfl := Except.ok.inj built
    exact keyless ambient (by decide)
  · cases built
  · obtain rfl := Except.ok.inj built
    exact keyless profile (by decide)
  · cases built
  · obtain ⟨region, _, rest⟩ := bind_eq_ok_iff.mp built
    obtain rfl := Except.ok.inj rest
    exact keyless assumed (by decide)
  · obtain ⟨keys, read, rest⟩ := bind_eq_ok_iff.mp built
    obtain ⟨region, _, rest⟩ := bind_eq_ok_iff.mp rest
    obtain rfl := Except.ok.inj rest
    exact (if_pos (.inl static)).trans (staticKeys_secret read)
  · cases built
  · cases built
  · obtain ⟨accessKeyId, _, rest⟩ := bind_eq_ok_iff.mp built
    obtain ⟨secret, stripped, rest⟩ := bind_eq_ok_iff.mp rest
    obtain ⟨endpoint, _, rest⟩ := bind_eq_ok_iff.mp rest
    split_ifs at rest with empty
    · cases rest
    · obtain ⟨region, _, rest⟩ := bind_eq_ok_iff.mp rest
      obtain rfl := Except.ok.inj rest
      refine (if_pos (.inr compatible)).trans (storedSecret_of_stripped stripped ?_)
      rintro rfl
      simp at empty
  · cases built

end Clients

section Save

variable {current role kept : Dict} {roles : List (Json × Dict)}

theorem sentSecret_none {secret : Str} (read : sentSecret role = .ok secret) :
    WithoutSecret role ↔ NoSecret secret := by
  unfold sentSecret at read
  unfold WithoutSecret
  cases sent : dictGet role "secret_access_key" with
  | str text =>
      rw [sent] at read
      dsimp only at read ⊢
      split_ifs at read with present
      · obtain rfl := Except.ok.inj read
        rfl
      · obtain rfl := Except.ok.inj read
        have empty : text = [] := by simpa [Json.truthy] using present
        subst empty
        rfl
  | null | bool | int | float | arr | obj =>
      rw [sent] at read
      dsimp only at read ⊢
      split_ifs at read with present
      · cases read
      · obtain rfl := Except.ok.inj read
        exact iff_of_true (by simpa using present) (.inl rfl)

theorem sentSecret_given {secret : Str} (read : sentSecret role = .ok secret)
    (new : ¬ NoSecret secret) :
    ∃ text, dictGet role "secret_access_key" = .str text ∧ secret = strip text := by
  unfold sentSecret at read
  dsimp only at read
  split_ifs at read with present
  · cases sent : dictGet role "secret_access_key" with
    | str text =>
        rw [sent] at read
        exact ⟨text, rfl, (Except.ok.inj read).symm⟩
    | null | bool | int | float | arr | obj =>
        rw [sent] at read
        cases read
  · exact absurd (.inl (Except.ok.inj read).symm) new

/-- With the entries of the current config, one role meets the condition iff it keeps its
secret. -/
theorem roleContinues_iff (named : iterate (configRoles current) >>= currentRoles = .ok roles)
    (kind : Keyed kept) (secret : SecretKept roles role kept) :
    RoleContinues current role kept ↔ SecretResolves current role := by
  have used : usedSecret kept = storedSecret kept := if_pos kind
  cases secret with
  | @sent secret read new stored =>
      have given : ¬ WithoutSecret role := fun without => new ((sentSecret_none read).mp without)
      obtain ⟨text, sent, rfl⟩ := sentSecret_given read new
      have again : strip (strip text) = strip text := trimBy_idempotent isSpace text
      refine iff_of_true ⟨fun without => absurd without given, fun other same _ => ?_, ?_⟩
        fun without => absurd without given
      · obtain rfl : text = other := Json.str.inj (sent.symm.trans same)
        rw [used, storedSecret, stored]
        dsimp only
        rw [again, if_neg fun empty => new (.inl empty)]
      · unfold WithoutSecret
        rw [stored]
        dsimp only
        rwa [again]
  | @found secret name last read none key entry stored =>
      have without : WithoutSecret role := (sentSecret_none read).mpr none
      have resolved : lastNamed current (dictGet role "name") = some last := by
        rw [lastNamed, named, key]
        exact entry
      have same : storedSecret kept = storedSecret last := by
        rw [storedSecret, stored, storedSecret]
      have blank : WithoutSecret kept ↔ WithoutSecret last := by
        rw [WithoutSecret, stored, WithoutSecret]
      constructor
      · intro continues _ other found
        obtain rfl := Option.some.inj (resolved.symm.trans found)
        refine ⟨fun empty => continues.present (blank.mpr empty), fun name called => ?_⟩
        rw [← same, ← used]
        exact continues.keeps without name called
      · intro resolves
        obtain ⟨full, inForce⟩ := resolves without last resolved
        refine ⟨fun _ name called => ?_, fun text sent new => ?_, fun empty => full (blank.mp empty)⟩
        · rw [used, same]
          exact inForce name called
        · unfold WithoutSecret at without
          rw [sent] at without
          exact absurd without new

end Save

section Runs

variable {environ : Environ} {start final : Dict}

/-- A call of `update_config` and the config that it saves. -/
structure Save where
  isAdmin : Bool
  writable : Bool
  body : Dict
  saved : Dict

/-- An accepted save. The next config is the saved one, migrated when it is loaded. -/
def SaveStep (environ : Environ) (current : Dict) (save : Save) (next : Dict) : Prop :=
  updateConfig environ current save.isAdmin save.writable save.body = .ok save.saved ∧
    ∃ modified, migrateConfig environ save.saved = .ok (next, modified)

theorem save_continues_iff {current next : Dict} {save : Save}
    (taken : SaveStep environ current save next) :
    ContinuesSecrets current save.body save.saved ↔ SecretsResolve current save.body := by
  obtain ⟨limits, settled, accepted⟩ := accepted_of_update taken.1
  obtain ⟨roles, named, stored⟩ := accepted.stored
  have each : ContinuesSecrets current save.body save.saved ↔
      ∀ sent ∈ configEntries save.body, ∀ role, sent = .obj role → Keyed role →
        SecretResolves current role := by
    refine forall₂_iff_members stored.entries fun sent stored entry => ?_
    obtain ⟨role, kept, rfl, rfl, _, _, accepted⟩ := checkEntry_ok entry
    constructor
    · intro continues other same keyed
      obtain rfl := Json.obj.inj same
      obtain ⟨stored, same, kind, continues⟩ := continues role rfl keyed
      obtain rfl := Json.obj.inj same
      exact (roleContinues_iff named kind (checkRole_secret keyed accepted)).mp continues
    · intro resolves other same keyed
      obtain rfl := Json.obj.inj same
      have typed : dictGet kept "type" = dictGet role "type" :=
        checkRole_other accepted (by decide) (by decide) (by decide)
      have kind : Keyed kept := by rwa [Keyed, typed]
      exact ⟨kept, rfl, kind, (roleContinues_iff named kind (checkRole_secret keyed accepted)).mpr
        (resolves role rfl keyed)⟩
  rw [each]
  exact ⟨fun all role member => all _ member role rfl,
    fun all sent member role same => all role (same ▸ member)⟩

theorem secrets_continue_iff {trace : List (Dict × Save)}
    (run : Execution (SaveStep environ) start trace final) :
    (∀ visited ∈ trace, ContinuesSecrets visited.1 visited.2.body visited.2.saved) ↔
      ∀ visited ∈ trace, SecretsResolve visited.1 visited.2.body := by
  refine forall₂_congr fun visited member => ?_
  obtain ⟨next, step⟩ := run.taken visited member
  exact save_continues_iff step

end Runs

section Examples

def compatibleRole (secret : Option String) : Json :=
  .obj ([(lit "name", .str (lit "store")), (lit "type", .str (lit "s3_compatible")),
    (lit "access_key_id", .str (lit "key")), (lit "endpoint_url", .str (lit "http://s3"))] ++
      (secret.map fun text => (lit "secret_access_key", Json.str (lit text))).toList)

def configOf (roles : List Json) : Dict := [(lit "roles", .arr roles)]

/-- A role sent back as `get_config` shows it. -/
def resubmitted (current : Dict) : Save where
  isAdmin := true
  writable := true
  body := configOf [compatibleRole none]
  saved :=
    match updateConfig bareEnviron current true true (configOf [compatibleRole none]) with
    | .ok saved => saved
    | .error _ => []

theorem resubmitted_step {current : Dict}
    (accepted : (updateConfig bareEnviron current true true
      (configOf [compatibleRole none])).isOk = true) :
    ∃ next, SaveStep bareEnviron current (resubmitted current) next := by
  obtain ⟨next, modified, migrated⟩ := migrate_bare (resubmitted current).saved
  refine ⟨next, ?_, modified, migrated⟩
  unfold resubmitted
  dsimp only
  cases updated : updateConfig bareEnviron current true true (configOf [compatibleRole none]) with
  | ok saved => rfl
  | error exc =>
      rw [updated] at accepted
      cases accepted

def once : Dict := configOf [compatibleRole "one"]

/-- Two entries of one name, with different secrets. -/
def twice : Dict := configOf [compatibleRole "one", compatibleRole "two"]

theorem secrets_continue_once :
    ∃ trace final, Execution (SaveStep bareEnviron) once trace final ∧ trace.length = 1 ∧
      ∀ visited ∈ trace, ContinuesSecrets visited.1 visited.2.body visited.2.saved := by
  obtain ⟨next, step⟩ := @resubmitted_step once (by decide)
  have run : Execution (SaveStep bareEnviron) once [(once, resubmitted once)] next :=
    .snoc .nil step
  refine ⟨_, next, run, rfl, (secrets_continue_iff run).mpr ?_⟩
  simp only [List.mem_singleton, forall_eq]
  intro role member _ _ last found
  obtain rfl : role = _ := Json.obj.inj (List.mem_singleton.mp member)
  obtain rfl := Option.some.inj found
  refine ⟨by decide, fun name called => ?_⟩
  obtain rfl := Json.str.inj called
  decide

/-- The first entry is in use, and the secret of the last one is saved. -/
theorem duplicate_changes_secret :
    ∃ trace final, Execution (SaveStep bareEnviron) twice trace final ∧
      ¬ ∀ visited ∈ trace, ContinuesSecrets visited.1 visited.2.body visited.2.saved := by
  obtain ⟨next, step⟩ := @resubmitted_step twice (by decide)
  refine ⟨_, next, .snoc .nil step, fun continues => ?_⟩
  have resolves := (save_continues_iff step).mp (continues (twice, resubmitted twice) (by simp))
  have same := (resolves _ List.mem_cons_self (by decide) (by decide) _ rfl).2 (lit "store") rfl
  exact absurd same (by decide)

end Examples

end S3Manager.Web
