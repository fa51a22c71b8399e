import S3Manager.Config.Migrate

/-! The lifetimes of presigned URLs, as `config.py` resolves them from the config and
the environment. -/

set_option autoImplicit false

namespace S3Manager.Config

open Python Library

def presignedUrlHardCeiling : Int := 604800

section Resolve

variable (environ : Environ) (config : Dict)

/-- The value that `_coerce` reads: the configured one, or else the variable. -/
def ttlSetting (key envName : String) : Json :=
  match dictGet config key with
  | .null => ((environ.getenv (lit envName)).map Json.str).getD .null
  | value => value

/-- `_coerce`; an infinite float raises `OverflowError`, which it does not catch. -/
def coerceTtl (value : Json) (fallback : Int) : Result Int :=
  match value with
  | .null => .ok fallback
  | value =>
      match pyInt environ.unicode value with
      | .ok seconds => .ok seconds
      | .error exc =>
          match exc.kind with
          | .valueError | .typeError => .ok fallback
          | _ => .error exc

def maxTtlSetting : Json :=
  ttlSetting environ config "presigned_url_max_ttl" "PRESIGNED_URL_MAX_TTL"

def defaultTtlSetting : Json :=
  ttlSetting environ config "presigned_url_default_ttl" "PRESIGNED_URL_DEFAULT_TTL"

/-- `resolve_presigned_ttls`: the default and the maximum, in seconds. -/
def resolvePresignedTtls : Result (Int × Int) := do
  let maxTtl ← coerceTtl environ (maxTtlSetting environ config) defaultPresignedUrlMaxTtl
  let maxTtl := if presignedUrlHardCeiling < maxTtl then presignedUrlHardCeiling else maxTtl
  let defaultTtl ←
    coerceTtl environ (defaultTtlSetting environ config) defaultPresignedUrlDefaultTtl
  .ok (if maxTtl < defaultTtl then maxTtl else defaultTtl, maxTtl)

end Resolve

section Laws

variable {environ : Environ} {config : Dict}

/-- A setting that `int()` overflows on. -/
def Unbounded (environ : Environ) (setting : Json) : Prop :=
  ∃ exc, pyInt environ.unicode setting = .error exc ∧ exc.kind = .overflowError

/-- A setting that does not read as less than a minute. -/
def AtLeastMinute (environ : Environ) (setting : Json) : Prop :=
  ∀ seconds, pyInt environ.unicode setting = .ok seconds → 60 ≤ seconds

theorem pyInt_error {unicode : Unicode} {value : Json} {exc : PyError}
    (fails : pyInt unicode value = .error exc) :
    exc.kind = .valueError ∨ exc.kind = .typeError ∨ exc.kind = .overflowError := by
  cases value with
  | null | arr _ | obj _ =>
      cases fails
      exact .inr (.inl rfl)
  | bool _ | int _ => cases fails
  | float value =>
      cases value with
      | finite _ => cases fails
      | infinite _ =>
          cases fails
          exact .inr (.inr rfl)
      | nan =>
          cases fails
          exact .inl rfl
  | str text =>
      unfold pyInt at fails
      dsimp only at fails
      split at fails
      · cases fails
      · cases fails
        exact .inl rfl

theorem coerceTtl_reads {value : Json} {fallback seconds : Int}
    (reads : pyInt environ.unicode value = .ok seconds) :
    coerceTtl environ value fallback = .ok seconds := by
  cases value with
  | null => cases reads
  | bool _ | int _ | float _ | str _ | arr _ | obj _ => simp only [coerceTtl, reads]

theorem coerceTtl_falls {value : Json} {fallback : Int} {exc : PyError}
    (fails : pyInt environ.unicode value = .error exc) (bounded : ¬ Unbounded environ value) :
    coerceTtl environ value fallback = .ok fallback := by
  have mild : exc.kind = .valueError ∨ exc.kind = .typeError := by
    obtain kind | kind | kind := pyInt_error fails
    · exact .inl kind
    · exact .inr kind
    · exact absurd ⟨exc, fails, kind⟩ bounded
  cases value with
  | null => rfl
  | bool _ | int _ | float _ | str _ | arr _ | obj _ =>
      simp only [coerceTtl, fails]
      obtain kind | kind := mild <;> rw [kind]

theorem coerceTtl_raises {value : Json} {fallback : Int} (unbounded : Unbounded environ value) :
    ∃ exc, coerceTtl environ value fallback = .error exc := by
  obtain ⟨exc, fails, kind⟩ := unbounded
  refine ⟨exc, ?_⟩
  cases value with
  | null =>
      cases fails
      cases kind
  | bool _ | int _ | float _ | str _ | arr _ | obj _ => simp only [coerceTtl, fails, kind]

theorem coerceTtl_ok_iff {value : Json} {fallback seconds : Int} :
    coerceTtl environ value fallback = .ok seconds ↔
      pyInt environ.unicode value = .ok seconds ∨
        (∃ exc, pyInt environ.unicode value = .error exc) ∧ ¬ Unbounded environ value ∧
          seconds = fallback := by
  cases reading : pyInt environ.unicode value with
  | ok read =>
      rw [coerceTtl_reads reading]
      simp
  | error exc =>
      by_cases unbounded : Unbounded environ value
      · obtain ⟨raised, fails⟩ := @coerceTtl_raises environ value fallback unbounded
        simp [fails, unbounded]
      · rw [coerceTtl_falls reading unbounded]
        simp [unbounded, eq_comm]

theorem coerceTtl_floor {value : Json} {fallback seconds : Int} (floor : 60 ≤ fallback)
    (coerced : coerceTtl environ value fallback = .ok seconds) :
    60 ≤ seconds ↔ AtLeastMinute environ value := by
  obtain reads | ⟨⟨exc, fails⟩, _, rfl⟩ := coerceTtl_ok_iff.mp coerced
  · unfold AtLeastMinute
    rw [reads]
    simp
  · unfold AtLeastMinute
    rw [fails]
    simp [floor]

theorem resolvePresignedTtls_eq_ok_iff {defaultTtl maxTtl : Int} :
    resolvePresignedTtls environ config = .ok (defaultTtl, maxTtl) ↔
      ∃ rawMax rawDefault,
        coerceTtl environ (maxTtlSetting environ config) defaultPresignedUrlMaxTtl =
            .ok rawMax ∧
          coerceTtl environ (defaultTtlSetting environ config) defaultPresignedUrlDefaultTtl =
            .ok rawDefault ∧
          maxTtl = min rawMax presignedUrlHardCeiling ∧
          defaultTtl = min rawDefault maxTtl := by
  have clamp (value bound : Int) : (if bound < value then bound else value) = min value bound := by
    split_ifs <;> omega
  unfold resolvePresignedTtls
  simp only [bind_eq_ok_iff, clamp]
  constructor
  · rintro ⟨rawMax, readMax, rawDefault, readDefault, same⟩
    obtain ⟨rfl, rfl⟩ := Prod.mk.inj (Except.ok.inj same)
    exact ⟨rawMax, rawDefault, readMax, readDefault, rfl, rfl⟩
  · rintro ⟨rawMax, rawDefault, readMax, readDefault, rfl, rfl⟩
    exact ⟨rawMax, readMax, rawDefault, readDefault, rfl⟩

/-- Whatever the settings are, the default never exceeds the maximum, nor that the ceiling. -/
theorem resolved_le {defaultTtl maxTtl : Int}
    (resolved : resolvePresignedTtls environ config = .ok (defaultTtl, maxTtl)) :
    defaultTtl ≤ maxTtl ∧ maxTtl ≤ presignedUrlHardCeiling := by
  obtain ⟨rawMax, rawDefault, _, _, rfl, rfl⟩ := resolvePresignedTtls_eq_ok_iff.mp resolved
  exact ⟨Int.min_le_right .., Int.min_le_right ..⟩

theorem maxTtl_floor {defaultTtl maxTtl : Int}
    (resolved : resolvePresignedTtls environ config = .ok (defaultTtl, maxTtl)) :
    60 ≤ maxTtl ↔ AtLeastMinute environ (maxTtlSetting environ config) := by
  obtain ⟨rawMax, rawDefault, readMax, _, rfl, rfl⟩ := resolvePresignedTtls_eq_ok_iff.mp resolved
  rw [← coerceTtl_floor (by decide) readMax, presignedUrlHardCeiling]
  omega

theorem defaultTtl_floor {defaultTtl maxTtl : Int}
    (resolved : resolvePresignedTtls environ config = .ok (defaultTtl, maxTtl)) :
    60 ≤ defaultTtl ↔ AtLeastMinute environ (defaultTtlSetting environ config) ∧
      AtLeastMinute environ (maxTtlSetting environ config) := by
  rw [← maxTtl_floor resolved]
  obtain ⟨rawMax, rawDefault, _, readDefault, rfl, rfl⟩ :=
    resolvePresignedTtls_eq_ok_iff.mp resolved
  rw [← coerceTtl_floor (by decide) readDefault]
  omega

end Laws

end S3Manager.Config
