import S3Manager.Clients.Build

/-! The client cache: `get_s3_client`, `invalidate_s3_client` and
`clear_s3_clients_cache` on the dictionary they share. -/

set_option autoImplicit false

namespace S3Manager.Clients

open Python Access Library

/-- `role_name or "default"` -/
def cacheKey (roleName : Option Str) : Str :=
  match roleName with
  | some name => if name.isEmpty then lit "default" else name
  | none => lit "default"

/-- What a slot holds. The code stores the client only; the role argument and
the config of the call that filled the slot are kept here as its history. -/
structure CachedClient (env : BuildEnv) where
  client : S3Client env
  argument : Option Str
  config : Dict

abbrev ClientCache (env : BuildEnv) := List (Str × CachedClient env)

variable {env : BuildEnv}

/-- `get_s3_client` with the lock held: one lookup, one build on a miss. -/
def getS3Client (config : Dict) (roleName : Option Str) (aws : Result Unit)
    (cache : ClientCache env) : Result (S3Client env) × ClientCache env :=
  match Assoc.get? cache (cacheKey roleName) with
  | some slot => (.ok slot.client, cache)
  | none =>
      match resolveClientRole config roleName with
      | .error exc => (.error exc, cache)
      | .ok role =>
          match buildClient env role aws with
          | .error exc => (.error exc, cache)
          | .ok client =>
              (.ok client, Assoc.set cache (cacheKey roleName) ⟨client, roleName, config⟩)

def invalidateS3Client (roleName : Option Str) (cache : ClientCache env) : ClientCache env :=
  Assoc.erase cache (cacheKey roleName)

def clearS3ClientsCache (_cache : ClientCache env) : ClientCache env := []

section Laws

theorem cacheKey_present {roleName : Option Str} (present : namePresent roleName = true) :
    roleName = some (cacheKey roleName) := by
  cases roleName with
  | none => simp [namePresent] at present
  | some name =>
      have nonempty : name.isEmpty = false := by simpa [namePresent] using present
      simp [cacheKey, nonempty]

theorem cacheKey_absent {roleName : Option Str} (absent : namePresent roleName = false) :
    cacheKey roleName = lit "default" := by
  cases roleName with
  | none => rfl
  | some name =>
      have empty : name.isEmpty = true := by simpa [namePresent] using absent
      simp [cacheKey, empty]

theorem getS3Client_cases (config : Dict) (roleName : Option Str) (aws : Result Unit)
    (cache : ClientCache env) :
    (∃ slot, Assoc.get? cache (cacheKey roleName) = some slot ∧
      getS3Client config roleName aws cache = (.ok slot.client, cache)) ∨
    (Assoc.get? cache (cacheKey roleName) = none ∧
      ∃ exc, getS3Client config roleName aws cache = (.error exc, cache)) ∨
    (Assoc.get? cache (cacheKey roleName) = none ∧
      ∃ client : S3Client env, resolveClientRole config roleName = .ok client.builtFrom ∧
        aws = .ok () ∧ getS3Client config roleName aws cache =
          (.ok client, Assoc.set cache (cacheKey roleName) ⟨client, roleName, config⟩)) := by
  unfold getS3Client
  cases Assoc.get? cache (cacheKey roleName) with
  | some slot => exact .inl ⟨slot, rfl, rfl⟩
  | none =>
      cases resolved : resolveClientRole config roleName with
      | error exc => exact .inr (.inl ⟨rfl, exc, rfl⟩)
      | ok role =>
          dsimp only
          cases built : buildClient env role aws with
          | error exc => exact .inr (.inl ⟨rfl, exc, rfl⟩)
          | ok client =>
              obtain ⟨rfl, answered⟩ := buildClient_ok built
              exact .inr (.inr ⟨rfl, client, rfl, answered, rfl⟩)

theorem getS3Client_hit {config : Dict} {roleName : Option Str} (aws : Result Unit)
    {cache : ClientCache env} {slot : CachedClient env}
    (hit : Assoc.get? cache (cacheKey roleName) = some slot) :
    getS3Client config roleName aws cache = (.ok slot.client, cache) := by
  simp only [getS3Client, hit]

theorem getS3Client_miss {config role : Dict} {roleName : Option Str} {params : ClientParams}
    {cache : ClientCache env} (miss : Assoc.get? cache (cacheKey roleName) = none)
    (resolved : resolveClientRole config roleName = .ok role)
    (created : createS3ClientFromRole env role = .ok params) :
    (getS3Client config roleName (.ok ()) cache).1 = .ok ⟨role, params, created⟩ := by
  simp only [getS3Client, miss, resolved, buildClient_of_created created]

/-- A property of every slot, given with the key it is stored under. -/
def EverySlot (holds : Str → CachedClient env → Prop) (cache : ClientCache env) : Prop :=
  ∀ key slot, Assoc.get? cache key = some slot → holds key slot

variable {holds : Str → CachedClient env → Prop} {cache : ClientCache env}

theorem everySlot_nil : EverySlot holds ([] : ClientCache env) := by
  intro key slot found
  simp at found

theorem everySlot_get (old : EverySlot holds cache) (config : Dict) (roleName : Option Str)
    (aws : Result Unit)
    (new : ∀ client : S3Client env, resolveClientRole config roleName = .ok client.builtFrom →
      holds (cacheKey roleName) ⟨client, roleName, config⟩) :
    EverySlot holds (getS3Client config roleName aws cache).2 := by
  obtain ⟨_, _, outcome⟩ | ⟨_, exc, outcome⟩ | ⟨_, client, resolved, -, outcome⟩ :=
    getS3Client_cases config roleName aws cache
  · rw [outcome]
    exact old
  · rw [outcome]
    exact old
  · rw [outcome]
    intro key slot found
    by_cases same : key = cacheKey roleName
    · subst same
      rw [Assoc.get?_set_self] at found
      obtain rfl := Option.some.inj found
      exact new client resolved
    · rw [Assoc.get?_set_ne _ _ same] at found
      exact old key slot found

theorem everySlot_invalidate (old : EverySlot holds cache) (roleName : Option Str) :
    EverySlot holds (invalidateS3Client roleName cache) := by
  intro key slot found
  by_cases same : key = cacheKey roleName
  · subst same
    simp [invalidateS3Client] at found
  · rw [invalidateS3Client, Assoc.get?_erase_ne _ same] at found
    exact old key slot found

end Laws

end S3Manager.Clients
