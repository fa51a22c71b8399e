import S3Manager.Access.Grants
import S3Manager.Storage.Confinement
import S3Manager.Storage.HelperRequests

/-! The helpers of `s3_client.py` stay inside the area that the role is granted. -/

set_option autoImplicit false

namespace S3Manager.Storage

open Python Access Library

section Rules

variable {α β : Type} {conventions : Conventions} {area : Area} {unicode : Unicode} {config : Dict}
  {role : Option Str} {bucket path : Str} {user : UserDict}

theorem confined_call {request : S3Request} (within : Within area request) :
    ConfinedTo conventions area (S3Program.call request) :=
  confined_of_sends ((sends_call request fun _ => True).mpr ⟨within, fun _ _ => trivial⟩)

theorem confined_mapError {program : S3Program α} {translate : PyError → PyError}
    (confined : ConfinedTo conventions area program) :
    ConfinedTo conventions area (program.mapError translate) := by
  refine Program.confined_bind confined fun result => ?_
  cases result <;> exact trivial

theorem confined_gatedCall {callback : S3Program α}
    (confined : ∀ validated, validateStorageAccess config role bucket user path = .ok validated →
      ConfinedTo conventions area callback) :
    ConfinedTo conventions area (gatedCall unicode config role bucket path user callback) :=
  confined_check fun validated accepted => confined_retry (confined validated accepted)

theorem confined_gatedListing {onVirtual : ListEntry → List FileEntry → α}
    {fetch : ListEntry → S3Program α}
    (confined : ∀ listing, prepareListPath unicode config role bucket user path = .ok listing →
      listing.virtualDirectories = none → ConfinedTo conventions area (fetch listing)) :
    ConfinedTo conventions area
      (gatedListing unicode config role bucket path user onVirtual fetch) := by
  refine confined_check fun listing prepared => ?_
  cases directories : listing.virtualDirectories with
  | some entries => exact trivial
  | none => exact confined_retry (confined listing prepared directories)

end Rules

section Pages

variable {α : Type} {conventions : Conventions} {area : Area} {bucket listed : Str}

theorem confined_of_makes {program : S3Program α} (makes : Makes (Within area) program) :
    ConfinedTo conventions area program :=
  confined_of_sends makes

theorem mayList_within (within : ∀ key, listed <+: key → area bucket key) :
    MayList (Within area) bucket listed := by
  rintro params rfl rfl
  exact within

end Pages

section Listings

variable {conventions : Conventions} {area : Area} {unicode : Unicode} {config : Dict}
  {role : Option Str} {bucket path : Str} {user : UserDict}

/-- What a listing can show lies below the folder that it was resolved to. -/
theorem within_folder (granted : ∀ bucket key, UserGrants config user bucket key → area bucket key)
    (trimmed : strip path = path) {listing : ListEntry}
    (prepared : prepareListPath unicode config role bucket user path = .ok listing)
    (real : listing.virtualDirectories = none) (search : Str) {key : Str}
    (below : folderPrefix listing.effectivePath ++ search <+: key) : area bucket key := by
  refine granted _ _ (granted_listed prepared real trimmed ?_)
  obtain ⟨rest, rfl⟩ := below
  unfold folderPrefix
  split
  · next empty => exact .inl (List.isEmpty_iff.mp empty)
  · exact .inr ⟨search ++ rest, by simp⟩

theorem within_listed (granted : ∀ bucket key, UserGrants config user bucket key → area bucket key)
    (trimmed : strip path = path) {listing : ListEntry}
    (prepared : prepareListPath unicode config role bucket user path = .ok listing)
    (real : listing.virtualDirectories = none) {key : Str}
    (below : folderPrefix listing.effectivePath <+: key) : area bucket key :=
  within_folder granted trimmed prepared real [] (by rwa [List.append_nil])

theorem confined_listObjects
    (granted : ∀ bucket key, UserGrants config user bucket key → area bucket key)
    (trimmed : strip path = path) (pages : Nat) :
    ConfinedTo conventions area (listObjectsForRole unicode config pages role bucket path user) :=
  confined_gatedListing fun _ prepared real => confined_of_makes <| makes_bind
    (makes_paginate (mayList_within fun _ => within_listed granted trimmed prepared real) rfl rfl
      pages) fun _ => makes_pure _

theorem confined_listRecursive {searchPrefix : Str}
    (granted : ∀ bucket key, UserGrants config user bucket key → area bucket key)
    (trimmed : strip (rstripSlash searchPrefix) = rstripSlash searchPrefix) (pages : Nat)
    (maxKeys maxPageSize : Int) (token : Option Str) :
    ConfinedTo conventions area (listObjectsRecursiveForRole unicode config pages role bucket
      searchPrefix user maxKeys token maxPageSize) :=
  confined_gatedListing fun _ prepared real => confined_of_makes <| makes_recursivePages
    (mayList_within fun _ => within_listed granted trimmed prepared real) rfl rfl pages []

theorem confined_summarize {searchPrefix : Str}
    (granted : ∀ bucket key, UserGrants config user bucket key → area bucket key)
    (trimmed : strip (rstripSlash searchPrefix) = rstripSlash searchPrefix) (pages : Nat)
    (maxKeys prefixScanPages : Int) :
    ConfinedTo conventions area (summarizeBucketForRole unicode config pages role bucket
      searchPrefix user maxKeys prefixScanPages) :=
  confined_gatedListing fun _ prepared real => by
    have may := mayList_within fun _ => within_listed granted trimmed prepared real
    refine confined_of_makes (makes_bind (makes_scanChildren may rfl rfl _ _) fun _ => ?_)
    exact makes_bind (makes_scanPages may rfl rfl pages _) fun _ => makes_pure _

theorem confined_listPaginated
    (granted : ∀ bucket key, UserGrants config user bucket key → area bucket key)
    (trimmed : strip path = path) (maxKeys : Int) (token : Option Str) :
    ConfinedTo conventions area
      (listObjectsPaginatedForRole unicode config role bucket path user maxKeys token) := by
  refine confined_gatedListing fun listing prepared real => confined_of_makes ?_
  have may := mayList_within fun _ => within_listed granted trimmed prepared real
  exact makes_bind (makes_firstPageDirectories may) fun directories =>
    makes_bind (makes_call (may _ rfl rfl)) fun page => makes_pure _

theorem confined_clientLoad
    (granted : ∀ bucket key, UserGrants config user bucket key → area bucket key)
    (trimmed : strip path = path) (maxClientLoad : Int) (token : Option Str) (search : Str) :
    ConfinedTo conventions area (listObjectsClientLoadForRole unicode config role bucket path user
      maxClientLoad token search) :=
  confined_gatedListing fun _ prepared real => confined_of_makes <| makes_bind
    (makes_clientLoadPages
      (mayList_within fun _ => within_folder granted trimmed prepared real search) _ _ _ _)
    fun _ => makes_pure _

end Listings

section Single

variable {conventions : Conventions} {area : Area} {bucket path : Str} {store : Store}

/-- What a delete of one key does with the page it has listed. -/
def afterSingle (bucket path : Str) (page : ListPage) : S3Program Nat :=
  match page.contents with
  | [] => S3Program.raise .fileNotFoundError (deleteNotFound path)
  | object :: _ =>
      if object.key = rstripSlash path then do
        let _ ← S3Program.call (.deleteObject bucket (rstripSlash path))
        pure 1
      else S3Program.raise .fileNotFoundError (deleteNotFound path)

theorem single_answer : store.answer conventions (.listObjectsV2 (singleParams bucket path)) =
    (.ok (listPage conventions 1 ((store.objectsUnder bucket (rstripSlash path)).map .object)),
      store) :=
  answer_page single_remaining

/-- The page decides only whether the key is there, although it may show another one. -/
theorem afterSingle_page :
    afterSingle bucket path
        (listPage conventions 1 ((store.objectsUnder bucket (rstripSlash path)).map .object)) =
      if (store.get? bucket (rstripSlash path)).isSome then do
        let _ ← S3Program.call (.deleteObject bucket (rstripSlash path))
        pure 1
      else S3Program.raise .fileNotFoundError (deleteNotFound path) := by
  cases present : store.get? bucket (rstripSlash path) with
  | some stored =>
      obtain ⟨first, rest, lines, same⟩ := objectsUnder_present present
      simp [afterSingle, lines, listPage, Listed.object?, same]
  | none =>
      unfold afterSingle
      split
      · rfl
      · next object rest shown =>
          have found := listed_present rfl shown
          rw [if_neg]
          · rfl
          · intro same
            exact found (same ▸ present)

/-- A delete of one key lists more than the key, and still cannot tell what else there is. -/
theorem confined_deleteSingle (inside : area bucket (rstripSlash path)) :
    ConfinedTo conventions area (deleteSingle bucket path) := by
  have erase : ConfinedTo conventions area
      (S3Program.call (.deleteObject bucket (rstripSlash path)) >>= fun _ => (pure 1 : S3Program Nat)) :=
    confined_bind (confined_call inside) fun _ => trivial
  have decided (page : ListPage) : ConfinedTo conventions area (afterSingle bucket path page) := by
    unfold afterSingle
    split
    · exact trivial
    · split
      · exact erase
      · exact trivial
  refine ⟨fun world => ?_, fun first second alike => ?_⟩
  · cases fault : world.faults 0 with
    | some exc =>
        rw [handle_fails fault]
        exact ⟨fun _ _ _ => rfl, trivial⟩
    | none =>
        rw [handle_answers fault, show firstPage bucket (rstripSlash path) none (some 1) =
          singleParams bucket path from rfl, single_answer]
        exact ⟨fun _ _ _ => rfl, decided _⟩
  · cases fault : second.faults 0 with
    | some exc =>
        rw [handle_fails fault, handle_fails (alike.faults ▸ fault)]
        exact ⟨rfl, congrArg (fun faults count => faults (count + 1)) alike.faults, alike.store⟩
    | none =>
        rw [handle_answers fault, handle_answers (alike.faults ▸ fault),
          show firstPage bucket (rstripSlash path) none (some 1) = singleParams bucket path from rfl,
          single_answer, single_answer]
        refine ⟨?_, congrArg (fun faults count => faults (count + 1)) alike.faults, alike.store⟩
        show afterSingle bucket path _ = afterSingle bucket path _
        rw [afterSingle_page, afterSingle_page, alike.store.objects _ _ inside]

end Single

section Objects

variable {conventions : Conventions} {area : Area} {unicode : Unicode} {config : Dict}
  {role : Option Str} {bucket path : Str} {user : UserDict}

theorem confined_deleteObject
    (granted : ∀ bucket key, UserGrants config user bucket key → area bucket key)
    (trimmed : strip path = path) (pages : Nat) :
    ConfinedTo conventions area
      (deleteObjectForRole unicode config pages role bucket path user) := by
  refine confined_gatedCall fun validated accepted => confined_bind ?_ fun deleted => trivial
  have inside (rest : Str) : area bucket (rstripSlash path ++ '/' :: rest) :=
    granted _ _ (granted_inside accepted trimmed rest)
  unfold deletePathKeys
  cases slash : endsWith path ['/'] with
  | true =>
      have below {key : Str} (under : rstripSlash path ++ ['/'] <+: key) : area bucket key := by
        obtain ⟨rest, rfl⟩ := under
        simpa using inside rest
      exact confined_of_makes (makes_deleteDirectory pages (mayList_within fun _ => below)
        fun keys under key member => below (under key member))
  | false =>
      refine confined_deleteSingle ?_
      rw [rstripSlash_eq_self slash]
      exact granted _ _ (granted_key accepted trimmed)

/-- A helper that makes one request for the key it checks. -/
theorem confined_gatedRequest {α : Type} {callback : S3Program α}
    (granted : ∀ bucket key, UserGrants config user bucket key → area bucket key)
    (trimmed : strip path = path)
    (confined : area bucket path → ConfinedTo conventions area callback) :
    ConfinedTo conventions area (gatedCall unicode config role bucket path user callback) :=
  confined_gatedCall fun _ accepted => confined (granted _ _ (granted_key accepted trimmed))

theorem confined_copyObject {destBucket destPath : Str}
    (granted : ∀ bucket key, UserGrants config user bucket key → area bucket key)
    (trimmed : strip path = path) (destTrimmed : strip destPath = destPath) :
    ConfinedTo conventions area
      (copyObjectForRole unicode config role bucket path destBucket destPath user) :=
  confined_check fun _ source => confined_check fun _ dest => confined_check fun _ _ =>
    confined_retry (confined_mapError (confined_call
      ⟨granted _ _ (granted_key dest destTrimmed), granted _ _ (granted_key source trimmed)⟩))

end Objects

end S3Manager.Storage
