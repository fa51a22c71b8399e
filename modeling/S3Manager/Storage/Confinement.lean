import S3Manager.Library.Pool
import S3Manager.Storage.DeleteRuns
import S3Manager.Storage.FolderLines
import S3Manager.Storage.PrefixLaw

/-! Programs that stay inside an area of the store: they change nothing outside it, and
what lies outside makes no difference to them. -/

set_option autoImplicit false

namespace S3Manager.Storage

open Python Access Library

/-- The objects of an area, by bucket and key. -/
abbrev Area := Str → Str → Prop

section Model

/-- Requests for objects of the area, and listings that can show no others. -/
def Within (area : Area) : S3Request → Prop
  | .listObjectsV2 params => ∀ key, params.searchPrefix <+: key → area params.bucket key
  | .headObject bucket key | .getObject bucket key _ | .putObject bucket key _ _ _ =>
      area bucket key
  | .uploadFileobj bucket key _ _ _ | .deleteObject bucket key => area bucket key
  | .generatePresignedUrl bucket key _ _ => area bucket key
  | .copyObject bucket key sourceBucket sourceKey =>
      area bucket key ∧ area sourceBucket sourceKey
  | .deleteObjects bucket keys => ∀ key ∈ keys, area bucket key
  | .listBuckets => False

/-- Stores with the same objects in the area. -/
structure Store.AlikeOn (area : Area) (first second : Store) : Prop where
  now : first.now = second.now
  objects : ∀ bucket key, area bucket key → first.get? bucket key = second.get? bucket key

/-- Worlds whose stores are alike and in which the same calls fail. -/
structure World.AlikeOn (area : Area) (first second : World) : Prop where
  faults : first.faults = second.faults
  store : first.store.AlikeOn area second.store

def World.KeepsOutside (area : Area) (world later : World) : Prop :=
  ∀ bucket key, ¬ area bucket key → later.store.get? bucket key = world.store.get? bucket key

def ConfinedTo {α : Type} (conventions : Conventions) (area : Area) (program : S3Program α) :
    Prop :=
  Program.Confined (handle conventions) (World.AlikeOn area) (World.KeepsOutside area) program

end Model

section Answers

variable {conventions : Conventions} {area : Area} {first second store : Store}

theorem listing_alike (alike : first.AlikeOn area second) {params : ListParams}
    (within : Within area (.listObjectsV2 params)) : first.listing params = second.listing params := by
  have same : ((first.objects params.bucket).filterKeys params.searchPrefix.isPrefixOf).entries =
      ((second.objects params.bucket).filterKeys params.searchPrefix.isPrefixOf).entries := by
    refine OrderedMap.entries_eq_of_get? fun key => ?_
    rw [OrderedMap.get?_filterKeys, OrderedMap.get?_filterKeys]
    split_ifs with below
    · exact alike.objects _ _ (within key (List.isPrefixOf_iff_prefix.mp below))
    · rfl
  exact congrArg (fun entries => rollUp (entries.map (listed params))) same

theorem alike_put (alike : first.AlikeOn area second) (bucket key : Str) (body : Bytes)
    (contentType : Option Str) :
    (first.put bucket key body contentType).AlikeOn area (second.put bucket key body contentType) := by
  refine ⟨alike.now, fun name other inside => ?_⟩
  rw [get?_put, get?_put, alike.now, alike.objects name other inside]

theorem alike_eraseAll (alike : first.AlikeOn area second) (bucket : Str) (keys : List Str) :
    (first.eraseAll bucket keys).AlikeOn area (second.eraseAll bucket keys) := by
  refine ⟨alike.now, fun name other inside => ?_⟩
  rw [get?_eraseAll, get?_eraseAll, alike.objects name other inside]

/-- Alike stores answer a request inside the area alike, and stay alike. -/
theorem answer_alike (alike : first.AlikeOn area second) {request : S3Request}
    (within : Within area request) :
    (first.answer conventions request).1 = (second.answer conventions request).1 ∧
      (first.answer conventions request).2.AlikeOn area (second.answer conventions request).2 := by
  cases request with
  | listObjectsV2 params =>
      have lines : first.remaining conventions params = second.remaining conventions params := by
        simp only [Store.remaining, listing_alike alike within]
      exact ⟨congrArg (Except.map (listPage conventions (pageSize params))) lines, alike⟩
  | headObject bucket key =>
      simp only [Store.answer, alike.objects bucket key within]
      cases second.get? bucket key with
      | none => exact ⟨rfl, alike⟩
      | some stored => exact ⟨rfl, alike⟩
  | getObject bucket key range =>
      have read : first.getObject bucket key range = second.getObject bucket key range := by
        simp only [Store.getObject, alike.objects bucket key within]
      exact ⟨read, alike⟩
  | putObject bucket key body contentType _ => exact ⟨rfl, alike_put alike _ _ _ _⟩
  | uploadFileobj bucket key body contentType _ => exact ⟨rfl, alike_put alike _ _ _ _⟩
  | copyObject bucket key sourceBucket sourceKey =>
      simp only [Store.answer, alike.objects sourceBucket sourceKey within.2]
      cases second.get? sourceBucket sourceKey with
      | none => exact ⟨rfl, alike⟩
      | some stored => exact ⟨rfl, alike_put alike _ _ _ _⟩
  | deleteObject bucket key => exact ⟨rfl, alike_eraseAll alike _ _⟩
  | deleteObjects bucket keys => exact ⟨rfl, alike_eraseAll alike _ _⟩
  | generatePresignedUrl => exact ⟨rfl, alike⟩
  | listBuckets => exact within.elim

theorem put_outside {bucket key name other : Str} (inside : area bucket key)
    (outside : ¬ area name other) (body : Bytes) (contentType : Option Str) :
    (store.put bucket key body contentType).get? name other = store.get? name other := by
  rw [get?_put, if_neg]
  rintro ⟨rfl, rfl⟩
  exact outside inside

theorem eraseAll_outside {bucket name other : Str} {keys : List Str}
    (inside : ∀ key ∈ keys, area bucket key) (outside : ¬ area name other) :
    (store.eraseAll bucket keys).get? name other = store.get? name other := by
  rw [get?_eraseAll, if_neg]
  rintro ⟨rfl, member⟩
  exact outside (inside other member)

/-- A request inside the area changes nothing outside. -/
theorem answer_outside {request : S3Request} (within : Within area request) {name other : Str}
    (outside : ¬ area name other) :
    (store.answer conventions request).2.get? name other = store.get? name other := by
  cases request with
  | listObjectsV2 | getObject | generatePresignedUrl => rfl
  | headObject bucket key =>
      simp only [Store.answer]
      cases store.get? bucket key with
      | none => rfl
      | some stored => rfl
  | putObject => exact put_outside within outside _ _
  | uploadFileobj => exact put_outside within outside _ _
  | copyObject bucket key sourceBucket sourceKey =>
      simp only [Store.answer]
      cases store.get? sourceBucket sourceKey with
      | none => rfl
      | some stored => exact put_outside within.1 outside _ _
  | deleteObject bucket key =>
      exact eraseAll_outside (fun _ member => (List.mem_singleton.mp member) ▸ within) outside
  | deleteObjects => exact eraseAll_outside within outside
  | listBuckets => exact within.elim

/-- A store lists keys below the prefix it is asked for. -/
theorem answer_listsBelow {request : S3Request} {answer : request.Answer}
    (answered : (store.answer conventions request).1 = .ok answer) : ListsBelow request answer := by
  cases request with
  | listObjectsV2 params =>
      intro object member
      have page : (store.listObjectsV2 conventions params) = .ok answer := answered
      unfold Store.listObjectsV2 at page
      cases remaining : store.remaining conventions params with
      | error exc =>
          rw [remaining] at page
          cases page
      | ok lines =>
          rw [remaining] at page
          obtain rfl := Except.ok.inj page
          obtain ⟨line, taken, shown⟩ := List.mem_filterMap.mp member
          obtain rfl : line = .object object := by
            cases line with
            | object found => exact congrArg Listed.object (Option.some.inj shown)
            | group _ => cases shown
          have known : .object object ∈ store.listing params := by
            have inLines := List.mem_of_mem_take taken
            unfold Store.remaining at remaining
            split at remaining
            · exact Except.ok.inj remaining ▸ inLines
            · split at remaining
              · cases remaining
              · rw [← Except.ok.inj remaining] at inLines
                exact (List.mem_filter.mp inLines).1
          exact (object_line known).1
  | _ => trivial

end Answers

section Effects

variable {conventions : Conventions} {area : Area}

/-- What every permitted request does to the store, every effect does. -/
theorem handle_step {permitted : S3Request → Prop} {keeps : Store → Store → Prop}
    (refl : ∀ store, keeps store store)
    (answers : ∀ (request : S3Request) (store : Store), permitted request →
      keeps store (store.answer conventions request).2)
    (effect : Effect) (world : World) (allowed : onlyS3 permitted effect) :
    faithfulReply ListsBelow effect (handle conventions effect world).1 ∧
      keeps world.store (handle conventions effect world).2.store := by
  cases effect with
  | getClient name =>
      refine ⟨trivial, ?_⟩
      simp only [handle]
      split <;> exact refl _
  | invalidateClient name => exact ⟨trivial, refl _⟩
  | s3 request =>
      cases fault : world.faults 0 with
      | some exc =>
          rw [handle_fails fault]
          refine ⟨fun answer same => ?_, refl _⟩
          cases same
      | none =>
          rw [handle_answers fault]
          exact ⟨fun answer same => answer_listsBelow same, answers request _ allowed⟩

theorem handle_keeps (effect : Effect) (world : World)
    (permitted : onlyS3 (Within area) effect) :
    faithfulReply ListsBelow effect (handle conventions effect world).1 ∧
      world.KeepsOutside area (handle conventions effect world).2 :=
  @handle_step conventions (Within area)
    (fun store later => ∀ bucket key, ¬ area bucket key → later.get? bucket key = store.get? bucket key)
    (fun _ _ _ _ => rfl) (fun _ _ within _ _ outside => answer_outside within outside) effect world
    permitted

theorem handle_alike (effect : Effect) (first second : World)
    (permitted : onlyS3 (Within area) effect) (alike : first.AlikeOn area second) :
    (handle conventions effect first).1 = (handle conventions effect second).1 ∧
      (handle conventions effect first).2.AlikeOn area (handle conventions effect second).2 := by
  have later {left right : Store} (same : left.AlikeOn area right) :
      (first.later left).AlikeOn area (second.later right) :=
    ⟨congrArg (fun faults count => faults (count + 1)) alike.faults, same⟩
  cases effect with
  | getClient name =>
      simp only [handle, alike.faults]
      cases second.faults 0 with
      | none => exact ⟨rfl, later alike.store⟩
      | some exc => exact ⟨rfl, later alike.store⟩
  | invalidateClient name => exact ⟨rfl, later alike.store⟩
  | s3 request =>
      cases fault : second.faults 0 with
      | some exc =>
          rw [handle_fails fault, handle_fails (alike.faults ▸ fault)]
          exact ⟨rfl, later alike.store⟩
      | none =>
          rw [handle_answers fault, handle_answers (alike.faults ▸ fault)]
          obtain ⟨same, left_alike⟩ :=
            @answer_alike conventions area _ _ alike.store request permitted
          exact ⟨same, later left_alike⟩

theorem keepsOutside_refl (world : World) : world.KeepsOutside area world := fun _ _ _ => rfl

theorem keepsOutside_trans (first second third : World) (left : first.KeepsOutside area second)
    (right : second.KeepsOutside area third) : first.KeepsOutside area third :=
  fun bucket key outside => (right bucket key outside).trans (left bucket key outside)

end Effects

section Rules

variable {α β : Type} {conventions : Conventions} {area : Area}

/-- Programs whose requests all lie inside the area are confined to it. -/
theorem confined_of_sends {program : S3Program α} {post : α → Prop}
    (sends : program.Sends (Within area) ListsBelow post) : ConfinedTo conventions area program :=
  Program.confined_of_wp (fun effect world => handle_keeps effect world)
    (fun effect first second => handle_alike effect first second) sends

theorem confined_bind {program : S3Program α} {next : α → S3Program β}
    (first : ConfinedTo conventions area program)
    (later : ∀ value, ConfinedTo conventions area (next value)) :
    ConfinedTo conventions area (program >>= next) := by
  refine Program.confined_bind first fun result => ?_
  cases result with
  | ok value => exact later value
  | error exc => exact trivial

/-- After a check, only what passes it matters. -/
theorem confined_check {check : Result α} {next : α → S3Program β}
    (later : ∀ value, check = .ok value → ConfinedTo conventions area (next value)) :
    ConfinedTo conventions area (S3Program.ofResult check >>= next) := by
  cases check with
  | ok value => exact later value rfl
  | error exc => exact trivial

theorem confined_perform {effect : Effect} {next : effect.Reply → S3Program α}
    (permitted : onlyS3 (Within area) effect)
    (rest : ∀ reply, ConfinedTo conventions area (next reply)) :
    ConfinedTo conventions area (.perform effect next : S3Program α) := by
  refine ⟨fun world => ⟨(handle_keeps effect world permitted).2, rest _⟩,
    fun first second alike => ?_⟩
  obtain ⟨same, left_alike⟩ := handle_alike effect first second permitted alike
  exact ⟨congrArg next same, left_alike⟩

theorem confined_retry {unicode : Unicode} {roleName : Option Str} {callback : S3Program α}
    (confined : ConfinedTo conventions area callback) :
    ConfinedTo conventions area (executeWithS3Retry unicode roleName callback) := by
  have second : ConfinedTo conventions area (secondAttempt unicode roleName callback) := by
    refine confined_perform trivial fun reply => ?_
    cases reply with
    | error exc => exact trivial
    | ok _ =>
        refine Program.confined_bind confined fun result => ?_
        cases result with
        | ok value => exact trivial
        | error exc =>
            dsimp only
            split_ifs <;> exact trivial
  refine confined_perform trivial fun reply => ?_
  cases reply with
  | error exc =>
      dsimp only
      split_ifs
      · exact confined_perform trivial fun _ => second
      · exact trivial
  | ok _ =>
      refine Program.confined_bind confined fun result => ?_
      cases result with
      | ok value => exact trivial
      | error exc =>
          dsimp only
          split_ifs
          · exact trivial
          · exact confined_perform trivial fun _ => second
          · exact trivial

end Rules

end S3Manager.Storage
