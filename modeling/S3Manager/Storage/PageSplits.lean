import S3Manager.Storage.SummaryCoverage

/-! The two walks of a bucket summary over listings that S3 cuts into pages as it
likes: short pages, empty ones, and a last page that holds nothing are among the cuts. -/

set_option autoImplicit false

namespace S3Manager.Storage

open Python Access Library

/-- Where the listings of a store stand: what a request has still to be shown. -/
structure Pager (store : Store) where
  left : ListParams → List Listed
  start : ∀ params, params.continuationToken = none → left params = store.listing params

section Cuts

variable {store : Store}

/-- A page shows the next lines, and its token goes on behind them. -/
structure Pager.Cut (pager : Pager store) (params : ListParams) (shown rest : List Listed)
    (page : ListPage) : Prop where
  split : pager.left params = shown ++ rest
  contents : page.contents = shown.filterMap Listed.object?
  groups : page.commonPrefixes = shown.filterMap Listed.group?
  last : page.isTruncated = false → rest = []
  next : page.isTruncated = true → ∃ token, page.nextContinuationToken = some token ∧
    pager.left (params.continueWith token) = rest

def Pager.Answers (pager : Pager store) : (request : S3Request) → request.Answer → Prop
  | .listObjectsV2 params, page => ∃ shown rest, pager.Cut params shown rest page
  | _, _ => True

/-- Replies of a store that answers every call, and no page of which is both empty and cut. -/
def Pager.Helps (pager : Pager store) : (effect : Effect) → effect.Reply → Prop
  | .getClient _, reply => reply = .ok ()
  | .invalidateClient _, _ => True
  | .s3 (.listObjectsV2 params), reply => ∃ page shown rest, reply = .ok page ∧
      pager.Cut params shown rest page ∧ (page.isTruncated = true → shown ≠ [])
  | .s3 _, _ => True

/-- The listings of a summary: of whole keys, or of one level, and by pages of a size. -/
def SummaryRequest (request : S3Request) : Prop :=
  ∃ params, request = .listObjectsV2 params ∧ 0 < pageSize params ∧
    (params.delimiter = none ∨ params.delimiter = some ['/'])

theorem summaryRequest_list {params : ListParams} (live : 0 < pageSize params)
    (known : params.delimiter = none ∨ params.delimiter = some ['/']) :
    SummaryRequest (.listObjectsV2 params) :=
  ⟨params, rfl, live, known⟩

/-- The store that lists whole pages is one of the ways to cut its listings. -/
def Store.pager (store : Store) (conventions : Conventions) : Pager store where
  left params := match store.remaining conventions params with
    | .ok lines => lines
    | .error _ => []
  start params fresh := by
    unfold Store.remaining
    rw [fresh]

theorem known_ascending {params : ListParams}
    (known : params.delimiter = none ∨ params.delimiter = some ['/']) :
    Paging.Ascending Listed.name (store.listing params) := by
  obtain plain | slash := known
  · exact listing_ascending plain
  · exact folder_ascending slash

theorem store_cut {conventions : Conventions} {params : ListParams} {page : ListPage}
    (permitted : SummaryRequest (.listObjectsV2 params))
    (answered : store.listObjectsV2 conventions params = .ok page) :
    (store.pager conventions).Answers (.listObjectsV2 params) page := by
  obtain ⟨_, same, live, known⟩ := permitted
  obtain rfl := S3Request.listObjectsV2.inj same
  cases remaining : store.remaining conventions params with
  | error exc => simp [Store.listObjectsV2, remaining, Except.map] at answered
  | ok lines =>
      obtain rfl : listPage conventions (pageSize params) lines = page := by
        simp only [Store.listObjectsV2, remaining] at answered
        exact Except.ok.inj answered
      have left : (store.pager conventions).left params = lines := by simp [Store.pager, remaining]
      refine ⟨lines.take (pageSize params), lines.drop (pageSize params), ?_, rfl, rfl, ?_, ?_⟩
      · rw [left, List.take_append_drop]
      · intro final
        exact List.drop_of_length_le (by simpa [listPage] using final)
      · intro more
        obtain ⟨final, _⟩ | ⟨_, _, token, next⟩ := @page_cases conventions _ live lines
        · rw [more] at final
          cases final
        · refine ⟨token, next, ?_⟩
          have rest := remaining_next (known_ascending known) remaining next
          simp [Store.pager, rest]

end Cuts

section Walks

variable {store : Store} {pager : Pager store} {params : ListParams} {maxKeys : Nat}

variable {shown rest : List Listed} {page : ListPage}

/-- After a page of a cut listing the scan is done, or goes on with the objects behind it. -/
theorem Pager.Cut.scan_step {objects scanned : List S3Object}
    (cut : pager.Cut params shown rest page) (left : pager.left params = objects.map .object)
    (within : scanned.length ≤ maxKeys) :
    let scan := scanPage maxKeys scanned page.contents
    (∃ done, afterScanPage maxKeys params scan page = .inl done ∧
        CappedScan maxKeys (scanned ++ plainObjects objects) done.1 done.2) ∨
      ∃ token later, afterScanPage maxKeys params scan page =
          .inr (.ok (params.continueWith token)) ∧
        page.isTruncated = true ∧ objects.length = shown.length + later.length ∧
        scan.1 ++ plainObjects later = scanned ++ plainObjects objects ∧
        scan.1.length ≤ maxKeys ∧
        pager.left (params.continueWith token) = later.map .object := by
  intro scan
  obtain ⟨front, later, rfl, first, behind⟩ :=
    List.map_eq_append_iff.mp (left.symm.trans cut.split)
  obtain rfl : page.contents = front := by rw [cut.contents, ← first, object?_map]
  have last (final : page.isTruncated = false) : later = [] :=
    List.map_eq_nil_iff.mp (behind.trans (cut.last final))
  obtain done | ⟨more, goesOn, all, fits⟩ := @after_scan params maxKeys _ _ page within last
  · exact .inl done
  · obtain ⟨token, given, next⟩ := cut.next more
    refine .inr ⟨token, later, ?_, more, ?_, ?_, fits, next.trans behind.symm⟩
    · rw [goesOn, ListPage.requireToken, given]
      rfl
    · rw [List.length_append, ← first, List.length_map]
    · rw [all, List.append_assoc, ← plainObjects_append]

theorem sends_scanPages (pages : Nat) {objects scanned : List S3Object}
    (plain : params.delimiter = none) (live : 0 < pageSize params)
    (within : scanned.length ≤ maxKeys) (left : pager.left params = objects.map .object) :
    (scanPages maxKeys pages params scanned).Sends SummaryRequest pager.Answers fun walk =>
      CappedScan maxKeys (scanned ++ plainObjects objects) walk.1 walk.2 := by
  induction pages generalizing params objects scanned with
  | zero =>
      simp only [scanPages, sends_bind, sends_call]
      refine ⟨summaryRequest_list live (.inl plain), fun page answered => ?_⟩
      obtain ⟨shown, rest, cut⟩ := answered
      obtain ⟨done, ended, counted⟩ | ⟨token, later, goesOn, _⟩ := cut.scan_step left within
      · rw [ended]
        exact (sends_ok _ _).mpr counted
      · rw [goesOn]
        exact sends_raise _ _ _
  | succ pages ih =>
      simp only [scanPages, sends_bind, sends_call]
      refine ⟨summaryRequest_list live (.inl plain), fun page answered => ?_⟩
      obtain ⟨shown, rest, cut⟩ := answered
      obtain ⟨done, ended, counted⟩ | ⟨token, later, goesOn, _, _, split, fits, next⟩ :=
        cut.scan_step left within
      · rw [ended]
        exact (sends_ok _ _).mpr counted
      · rw [goesOn, ← split]
        exact ih plain live fits next

theorem sends_scanChildren (budget : Nat) {lines : List Listed} {found : List Str}
    (slash : params.delimiter = some ['/']) (live : 0 < pageSize params)
    (left : pager.left params = lines) :
    (scanChildren budget params found).Sends SummaryRequest pager.Answers fun children =>
      ∃ shown rest, lines.filterMap Listed.group? = shown ++ rest ∧
        children.1 = found ++ shown ∧ (children.2 = true → rest = []) := by
  induction budget generalizing params lines found with
  | zero =>
      simp only [scanChildren, sends_bind, sends_call, sends_ok]
      refine ⟨summaryRequest_list live (.inr slash), fun page answered => ?_⟩
      obtain ⟨shown, rest, cut⟩ := answered
      refine ⟨page.commonPrefixes, rest.filterMap Listed.group?, ?_, rfl, fun whole => ?_⟩
      · rw [← left, cut.split, List.filterMap_append, cut.groups]
      · rw [cut.last (by simpa using whole)]
        rfl
  | succ budget ih =>
      simp only [scanChildren, sends_bind, sends_call]
      refine ⟨summaryRequest_list live (.inr slash), fun page answered => ?_⟩
      obtain ⟨shown, rest, cut⟩ := answered
      have split : lines.filterMap Listed.group? =
          page.commonPrefixes ++ rest.filterMap Listed.group? := by
        rw [← left, cut.split, List.filterMap_append, cut.groups]
      split_ifs with more
      · obtain ⟨token, given, next⟩ := cut.next more
        simp only [sends_bind, sends_ofResult, ListPage.requireToken, given]
        intro _ same
        obtain rfl := Except.ok.inj same
        refine sends_mono (ih slash live next) fun children => ?_
        rintro ⟨later, unseen, behind, all, complete⟩
        refine ⟨page.commonPrefixes ++ later, unseen, ?_, ?_, complete⟩
        · rw [split, behind, List.append_assoc]
        · rw [all, List.append_assoc]
      · refine (sends_ok _ _).mpr ⟨page.commonPrefixes, [], ?_, rfl, fun _ => rfl⟩
        rw [split, cut.last (Bool.eq_false_iff.mpr more)]
        rfl

end Walks

section Completion

variable {α β : Type} {store : Store} {pager : Pager store} {params : ListParams} {maxKeys : Nat}

/-- While S3 answers every call and goes on with every page, the program returns a value. -/
def S3Program.Completes (program : S3Program α) (pager : Pager store) : Prop :=
  Program.wp (fun _ => True) pager.Helps (fun result => ∃ value, result = .ok value) program

theorem completes_pure (value : α) : (pure value : S3Program α).Completes pager :=
  ⟨value, rfl⟩

theorem completes_bind {program : S3Program α} {next : α → S3Program β}
    (first : program.Completes pager) (second : ∀ value, (next value).Completes pager) :
    (program >>= next).Completes pager := by
  refine (Program.wp_bind _ _ _ program _).mpr (Program.wp_mono first ?_)
  rintro _ ⟨value, rfl⟩
  exact second value

theorem completes_list {next : ListPage → S3Program β}
    (goesOn : ∀ page shown rest, pager.Cut params shown rest page →
      (page.isTruncated = true → shown ≠ []) → (next page).Completes pager) :
    (S3Program.call (.listObjectsV2 params) >>= next).Completes pager := by
  refine ⟨trivial, ?_⟩
  rintro _ ⟨page, shown, rest, rfl, cut, moves⟩
  exact goesOn page shown rest cut moves

theorem completes_retry {unicode : Unicode} {roleName : Option Str} {callback : S3Program α}
    (completes : callback.Completes pager) :
    (executeWithS3Retry unicode roleName callback).Completes pager := by
  refine ⟨trivial, ?_⟩
  rintro _ rfl
  refine (Program.wp_bind _ _ _ callback _).mpr (Program.wp_mono completes ?_)
  rintro _ ⟨value, rfl⟩
  exact ⟨value, rfl⟩

theorem completes_scanPages (pages : Nat) {objects scanned : List S3Object}
    (within : scanned.length ≤ maxKeys) (left : pager.left params = objects.map .object)
    (enough : objects.length ≤ pages) :
    (scanPages maxKeys pages params scanned).Completes pager := by
  induction pages generalizing params objects scanned with
  | zero =>
      refine completes_list fun page shown rest cut moves => ?_
      obtain ⟨done, ended, _⟩ | ⟨token, later, _, more, counted, _⟩ := cut.scan_step left within
      · rw [ended]
        exact completes_pure _
      · have shows := List.length_pos_of_ne_nil (moves more)
        omega
  | succ pages ih =>
      refine completes_list fun page shown rest cut moves => ?_
      obtain ⟨done, ended, _⟩ | ⟨token, later, goesOn, more, counted, _, fits, next⟩ :=
        cut.scan_step left within
      · dsimp only
        rw [ended]
        exact completes_pure _
      · have shows := List.length_pos_of_ne_nil (moves more)
        dsimp only
        rw [goesOn]
        exact ih fits next (by omega)

theorem completes_scanChildren (budget : Nat) {found : List Str} :
    (scanChildren budget params found).Completes pager := by
  induction budget generalizing params found with
  | zero => exact completes_list fun page _ _ _ _ => completes_pure _
  | succ budget ih =>
      refine completes_list fun page shown rest cut _ => ?_
      dsimp only
      split_ifs with more
      · obtain ⟨token, given, _⟩ := cut.next more
        rw [ListPage.requireToken, given]
        exact ih
      · exact completes_pure _

end Completion

end S3Manager.Storage
