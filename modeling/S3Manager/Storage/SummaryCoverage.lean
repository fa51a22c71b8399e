import Mathlib.Data.List.Dedup
import S3Manager.Storage.FolderLines
import S3Manager.Storage.RecursiveWalk
import S3Manager.Storage.Summary

/-! What the coverage of a bucket summary says about the store: which keys a scan
has counted, and which child prefixes it knows of. -/

set_option autoImplicit false

namespace S3Manager.Storage

open Python Access Library

section Order

theorem lt_of_lower_front {front key stop : Str} (lower : front < stop) (apart : ¬ front <+: stop)
    (under : front <+: key) : key < stop := by
  obtain ⟨rest, rfl⟩ := under
  induction front generalizing stop with
  | nil => exact absurd (List.nil_prefix) apart
  | cons c more ih =>
      cases stop with
      | nil => exact absurd lower (List.not_lt_nil _)
      | cons d tail =>
          rw [List.cons_append]
          obtain below | ⟨rfl, later⟩ := List.cons_lt_cons_iff.mp lower
          · exact List.cons_lt_cons_iff.mpr (.inl below)
          · refine List.cons_lt_cons_iff.mpr (.inr ⟨rfl, ih later ?_⟩)
            intro within
            exact apart (List.cons_prefix_cons.mpr ⟨rfl, within⟩)

end Order

section Children

variable {searchPrefix name key : Str}

/-- A prefix one level below another. -/
def IsChild (searchPrefix name : Str) : Prop :=
  ∃ segment, '/' ∉ segment ∧ name = searchPrefix ++ segment ++ ['/']

theorem childPrefix_append (searchPrefix segment rest : Str) (plain : '/' ∉ segment) :
    childPrefix searchPrefix (searchPrefix ++ segment ++ '/' :: rest) =
      some (searchPrefix ++ segment ++ ['/']) := by
  have cut : (segment ++ '/' :: rest).takeWhile (fun c => c != '/') = segment := by
    rw [List.takeWhile_append_of_pos]
    · simp
    · intro c member
      have other : c ≠ '/' := by
        rintro rfl
        exact plain member
      simpa using other
  unfold childPrefix
  simp only [List.append_assoc, List.drop_left, cut]
  simp

theorem childPrefix_iff (under : searchPrefix <+: key) :
    childPrefix searchPrefix key = some name ↔ IsChild searchPrefix name ∧ name <+: key := by
  obtain ⟨remainder, rfl⟩ := under
  constructor
  · intro child
    by_cases below : '/' ∈ remainder
    · obtain ⟨front, rest, rfl, plain⟩ := split_slash below
      rw [← List.append_assoc, childPrefix_append searchPrefix front rest plain] at child
      obtain rfl := Option.some.inj child
      exact ⟨⟨front, plain, rfl⟩, rest, by simp⟩
    · simp [childPrefix, below] at child
  · rintro ⟨⟨segment, plain, rfl⟩, rest, same⟩
    rw [← same, List.append_assoc (searchPrefix ++ segment)]
    exact childPrefix_append searchPrefix segment rest plain

theorem childPrefix_under {object : S3Object} (child : IsChild searchPrefix name)
    (below : name <+: object.key) : childPrefix searchPrefix object.key = some name := by
  refine (childPrefix_iff ?_).mpr ⟨child, below⟩
  obtain ⟨segment, _, rfl⟩ := child
  exact ((List.prefix_append _ _).trans (List.prefix_append _ _)).trans below

theorem isChild_unique {other : Str} (first : IsChild searchPrefix name)
    (second : IsChild searchPrefix other) (left : name <+: key) (right : other <+: key) :
    name = other := by
  have under : searchPrefix <+: key := by
    obtain ⟨segment, _, rfl⟩ := first
    exact ((List.prefix_append _ _).trans (List.prefix_append _ _)).trans left
  exact Option.some.inj (((childPrefix_iff under).mpr ⟨first, left⟩).symm.trans
    ((childPrefix_iff under).mpr ⟨second, right⟩))

end Children

section Walk

variable {conventions : Conventions} {store : Store} {params : ListParams} {maxKeys : Nat}

theorem scanPage_eq (maxKeys : Nat) (scanned page : List S3Object) :
    scanPage maxKeys scanned page =
      (scanned ++ (plainObjects page).take (maxKeys - scanned.length),
        decide (maxKeys - scanned.length < (plainObjects page).length)) := by
  induction page generalizing scanned with
  | nil => simp [scanPage, plainObjects]
  | cons object rest ih =>
      rw [scanPage]
      cases marker : isMarker object with
      | true =>
          have skipped : plainObjects (object :: rest) = plainObjects rest := by
            simp [plainObjects, marker]
          rw [if_pos rfl, skipped, ih]
      | false =>
          have taken : plainObjects (object :: rest) = object :: plainObjects rest := by
            simp [plainObjects, marker]
          rw [if_neg Bool.false_ne_true, taken]
          split_ifs with full
          · rw [Nat.sub_eq_zero_of_le full]
            simp
          · obtain ⟨room, same⟩ : ∃ room, maxKeys - scanned.length = room + 1 :=
              ⟨maxKeys - scanned.length - 1, by omega⟩
            have left : maxKeys - (scanned ++ [object]).length = room := by
              rw [List.length_append, List.length_singleton]
              omega
            rw [ih, left, same]
            simp

/-- What a scan has counted of the objects it is after. -/
structure Scanned (maxKeys : Nat) (wanted scanned : List S3Object) (complete : Bool) : Prop where
  split : ∃ rest, wanted = scanned ++ rest ∧ (complete = true → rest = [])
  full : complete = false → maxKeys ≤ scanned.length

theorem page_cases {size : Nat} (live : 0 < size) (lines : List Listed) :
    (listPage conventions size lines).isTruncated = false ∧ lines.length ≤ size ∨
      (listPage conventions size lines).isTruncated = true ∧ size < lines.length ∧
        ∃ token, (listPage conventions size lines).nextContinuationToken = some token := by
  by_cases last : lines.length ≤ size
  · exact .inl ⟨by simpa [listPage] using last, last⟩
  · have long := not_le.mp last
    have marked := @Paging.nextMark_isSome _ _ Listed.name size lines live
    obtain ⟨mark, next⟩ := Option.isSome_iff_exists.mp (marked.trans (decide_eq_true long))
    exact .inr ⟨by simpa [listPage] using long, long, conventions.token mark,
      by simp [listPage, next]⟩

theorem plainObjects_page (size : Nat) (objects : List S3Object) :
    plainObjects objects =
      plainObjects (objects.take size) ++ plainObjects (objects.drop size) := by
  rw [← plainObjects_append, List.take_append_drop]

/-- A scan has counted the first objects it is after, as many as its cap allows. -/
structure CappedScan (maxKeys : Nat) (wanted scanned : List S3Object) (complete : Bool) :
    Prop where
  counted : scanned = wanted.take maxKeys
  whole : complete = true → wanted.length ≤ maxKeys
  full : complete = false → maxKeys ≤ scanned.length

theorem CappedScan.scanned {wanted scanned : List S3Object} {complete : Bool}
    (capped : CappedScan maxKeys wanted scanned complete) :
    Scanned maxKeys wanted scanned complete where
  split := by
    refine ⟨wanted.drop maxKeys, ?_, fun whole => List.drop_of_length_le (capped.whole whole)⟩
    rw [capped.counted, List.take_append_drop]
  full := capped.full

theorem take_counted {cap : Nat} {scanned later : List S3Object} (within : scanned.length ≤ cap) :
    (scanned ++ later).take cap = scanned ++ later.take (cap - scanned.length) := by
  rw [List.take_append, List.take_of_length_le within]

/-- After a page the scan is done, or goes on behind the page with all of it counted. -/
theorem after_scan {scanned later : List S3Object} {page : ListPage}
    (within : scanned.length ≤ maxKeys) (last : page.isTruncated = false → later = []) :
    let scan := scanPage maxKeys scanned page.contents
    let wanted := scanned ++ plainObjects (page.contents ++ later)
    (∃ done, afterScanPage maxKeys params scan page = .inl done ∧
        CappedScan maxKeys wanted done.1 done.2) ∨
      page.isTruncated = true ∧
        afterScanPage maxKeys params scan page = .inr (page.requireToken.map params.continueWith) ∧
        scan.1 = scanned ++ plainObjects page.contents ∧ scan.1.length ≤ maxKeys := by
  intro scan wanted
  have shape : scan = (scanned ++ (plainObjects page.contents).take (maxKeys - scanned.length),
      decide (maxKeys - scanned.length < (plainObjects page.contents).length)) :=
    scanPage_eq maxKeys scanned page.contents
  have paged : wanted = scanned ++ (plainObjects page.contents ++ plainObjects later) := by
    rw [← plainObjects_append]
  by_cases stopped : maxKeys - scanned.length < (plainObjects page.contents).length
  · refine .inl ⟨(scan.1, false), ?_, ?_, nofun, fun _ => ?_⟩
    · rw [afterScanPage, if_pos (by rw [shape]; simpa using stopped)]
    · rw [shape, paged, take_counted within, List.take_append_of_le_length stopped.le]
    · rw [shape, List.length_append, List.length_take]
      omega
  · have goesOn : ¬ scan.2 = true := by
      rw [shape]
      simpa using stopped
    have all : scan.1 = scanned ++ plainObjects page.contents := by
      rw [shape, List.take_of_length_le (not_lt.mp stopped)]
    have fits : scan.1.length ≤ maxKeys := by
      rw [all, List.length_append]
      omega
    cases truncated : page.isTruncated with
    | false =>
        have ended : wanted = scan.1 := by
          rw [paged, last truncated, all]
          exact congrArg _ (List.append_nil _)
        refine .inl ⟨(scan.1, true), ?_, ?_, fun _ => ?_, nofun⟩
        · rw [afterScanPage, if_neg goesOn, truncated]
          rfl
        · rw [ended, List.take_of_length_le fits]
        · rw [ended]
          exact fits
    | true =>
        by_cases full : maxKeys ≤ scan.1.length
        · refine .inl ⟨(scan.1, false), ?_, ?_, nofun, fun _ => full⟩
          · rw [afterScanPage, if_neg goesOn, if_pos truncated, if_pos full]
          · rw [paged, ← List.append_assoc, ← all, take_counted fits, Nat.sub_eq_zero_of_le full,
              List.take_zero, List.append_nil]
        · exact .inr ⟨rfl, by rw [afterScanPage, if_neg goesOn, if_pos truncated, if_neg full],
            all, fits⟩

/-- A page of the store is followed by the page that its token asks for. -/
theorem scan_step {objects scanned : List S3Object} (plain : params.delimiter = none)
    (live : 0 < pageSize params) (within : scanned.length ≤ maxKeys)
    (remaining : store.remaining conventions params = .ok (objects.map .object)) :
    let page := listPage conventions (pageSize params) (objects.map .object)
    let scan := scanPage maxKeys scanned page.contents
    (∃ done, afterScanPage maxKeys params scan page = .inl done ∧
        CappedScan maxKeys (scanned ++ plainObjects objects) done.1 done.2) ∨
      ∃ token, afterScanPage maxKeys params scan page = .inr (.ok (params.continueWith token)) ∧
        scan.1 = scanned ++ plainObjects (objects.take (pageSize params)) ∧
        scan.1.length ≤ maxKeys ∧ pageSize params < objects.length ∧
        store.remaining conventions (params.continueWith token) =
          .ok ((objects.drop (pageSize params)).map .object) := by
  intro page scan
  have contents : page.contents = objects.take (pageSize params) := contents_page _ _
  have joined : page.contents ++ objects.drop (pageSize params) = objects := by
    rw [contents, List.take_append_drop]
  have last : page.isTruncated = false → objects.drop (pageSize params) = [] := by
    intro final
    refine List.drop_of_length_le (Nat.not_lt.mp fun long => ?_)
    rw [truncated_page, decide_eq_true long] at final
    cases final
  obtain done | ⟨more, goesOn, all, fits⟩ := @after_scan params maxKeys _ _ page within last
  · rw [joined] at done
    exact .inl done
  · obtain ⟨final, _⟩ | ⟨_, long, token, next⟩ :=
      @page_cases conventions _ live (objects.map .object)
    · rw [more] at final
      cases final
    · rw [List.length_map] at long
      refine .inr ⟨token, ?_, ?_, fits, long, ?_⟩
      · rw [goesOn, ListPage.requireToken, next]
        rfl
      · rw [all, contents]
      · rw [List.map_drop]
        exact remaining_next (listing_ascending plain) remaining next

theorem atomic_scanPages (pages : Nat) {objects scanned : List S3Object}
    (plain : params.delimiter = none) (live : 0 < pageSize params)
    (within : scanned.length ≤ maxKeys)
    (remaining : store.remaining conventions params = .ok (objects.map .object)) :
    Atomic conventions (scanPages maxKeys pages params scanned) store fun walk after =>
      after = store ∧ CappedScan maxKeys (scanned ++ plainObjects objects) walk.1 walk.2 := by
  induction pages generalizing params objects scanned with
  | zero =>
      refine atomic_bind (atomic_list remaining) fun page same => ?_
      subst same
      obtain ⟨done, ended, counted⟩ | ⟨token, more, _⟩ :=
        @scan_step conventions store params maxKeys _ scanned plain live within remaining
      · rw [ended]
        exact atomic_pure ⟨rfl, counted⟩
      · rw [more]
        exact atomic_error _
  | succ pages ih =>
      refine atomic_bind (atomic_list remaining) fun page same => ?_
      subst same
      obtain ⟨done, ended, counted⟩ | ⟨token, more, whole, fits, _, rest⟩ :=
        @scan_step conventions store params maxKeys _ scanned plain live within remaining
      · dsimp only
        rw [ended]
        exact atomic_pure ⟨rfl, counted⟩
      · dsimp only
        rw [more]
        have later := @ih (params.continueWith token) _ _ plain live fits rest
        rw [whole, List.append_assoc, ← plainObjects_page] at later
        rw [whole]
        exact later

theorem scanPages_returns (pages : Nat) {objects scanned : List S3Object}
    (plain : params.delimiter = none) (live : 0 < pageSize params)
    (within : scanned.length ≤ maxKeys)
    (remaining : store.remaining conventions params = .ok (objects.map .object))
    (enough : objects.length ≤ pages + 1) :
    ∃ walk, Returns conventions (scanPages maxKeys pages params scanned) store walk store := by
  induction pages generalizing params objects scanned with
  | zero =>
      obtain ⟨done, ended, _⟩ | ⟨token, more, _, _, long, _⟩ :=
        @scan_step conventions store params maxKeys _ scanned plain live within remaining
      · refine ⟨done, returns_bind (returns_call (answer_page remaining)) ?_⟩
        rw [ended]
        exact returns_pure _
      · omega
  | succ pages ih =>
      obtain ⟨done, ended, _⟩ | ⟨token, more, _, fits, long, rest⟩ :=
        @scan_step conventions store params maxKeys _ scanned plain live within remaining
      · refine ⟨done, returns_bind (returns_call (answer_page remaining)) ?_⟩
        dsimp only
        rw [ended]
        exact returns_pure _
      · obtain ⟨walk, ran⟩ := @ih (params.continueWith token) _ _ plain live fits rest
          (by rw [List.length_drop]; omega)
        refine ⟨walk, returns_bind (returns_call (answer_page remaining)) ?_⟩
        dsimp only
        rw [more]
        exact ran

theorem atomic_scanChildren (budget : Nat) {lines : List Listed} {found : List Str}
    (ascending : Paging.Ascending Listed.name (store.listing params))
    (live : 0 < pageSize params)
    (remaining : store.remaining conventions params = .ok lines) :
    Atomic conventions (scanChildren budget params found) store fun children after =>
      after = store ∧ ∃ shown rest, lines.filterMap Listed.group? = shown ++ rest ∧
        children.1 = found ++ shown ∧ (children.2 = true → rest = []) := by
  have paged (size : Nat) (lines : List Listed) : lines.filterMap Listed.group? =
      (listPage conventions size lines).commonPrefixes ++
        (lines.drop size).filterMap Listed.group? := by
    simp only [listPage]
    rw [← List.filterMap_append, List.take_append_drop]
  induction budget generalizing params lines found with
  | zero =>
      refine atomic_bind (atomic_list remaining) fun page same => ?_
      subst same
      refine atomic_pure ⟨rfl, _, _, paged (pageSize params) lines, rfl, fun complete => ?_⟩
      obtain ⟨_, short⟩ | ⟨more, _⟩ := @page_cases conventions _ live lines
      · rw [List.drop_of_length_le short]
        rfl
      · rw [more] at complete
        cases complete
  | succ budget ih =>
      refine atomic_bind (atomic_list remaining) fun page same => ?_
      subst same
      obtain ⟨last, short⟩ | ⟨more, _, token, next⟩ := @page_cases conventions _ live lines
      · dsimp only
        rw [if_neg (by rw [last]; exact Bool.false_ne_true)]
        refine atomic_pure ⟨rfl, _, _, paged (pageSize params) lines, rfl, fun _ => ?_⟩
        rw [List.drop_of_length_le short]
        rfl
      · have required : ListPage.requireToken (listPage conventions (pageSize params) lines) =
            .ok token := by rw [ListPage.requireToken, next]
        dsimp only
        rw [if_pos more, required]
        have later := @ih (params.continueWith token) _
          (found ++ (listPage conventions (pageSize params) lines).commonPrefixes) ascending live
          (remaining_next ascending remaining next)
        refine atomic_mono later ?_
        rintro children after ⟨same, shown, rest, split, all, complete⟩
        refine ⟨same, (listPage conventions (pageSize params) lines).commonPrefixes ++ shown, rest,
          ?_, by rw [all, List.append_assoc], complete⟩
        rw [paged (pageSize params) lines, List.append_assoc]
        exact congrArg _ split

theorem scanChildren_returns (budget : Nat) {lines : List Listed} {found : List Str}
    (ascending : Paging.Ascending Listed.name (store.listing params))
    (live : 0 < pageSize params)
    (remaining : store.remaining conventions params = .ok lines) :
    ∃ children, Returns conventions (scanChildren budget params found) store children store := by
  induction budget generalizing params lines found with
  | zero => exact ⟨_, returns_bind (returns_call (answer_page remaining)) (returns_pure _)⟩
  | succ budget ih =>
      obtain ⟨last, _⟩ | ⟨more, _, token, next⟩ := @page_cases conventions _ live lines
      · refine ⟨(found ++ (listPage conventions (pageSize params) lines).commonPrefixes, true),
          returns_bind (returns_call (answer_page remaining)) ?_⟩
        dsimp only
        rw [if_neg (by rw [last]; exact Bool.false_ne_true)]
        exact returns_pure _
      · have required : ListPage.requireToken (listPage conventions (pageSize params) lines) =
            .ok token := by rw [ListPage.requireToken, next]
        obtain ⟨children, ran⟩ := @ih (params.continueWith token) _
          (found ++ (listPage conventions (pageSize params) lines).commonPrefixes) ascending live
          (remaining_next ascending remaining next)
        refine ⟨children, returns_bind (returns_call (answer_page remaining)) ?_⟩
        dsimp only
        rw [if_pos more, required]
        exact ran

end Walk

section Gathered

variable {store : Store} {bucket name : Str} {scan : BucketScan}

/-- The objects that a summary of a prefix is about. -/
def wantedObjects (store : Store) (bucket searchPrefix : Str) : List S3Object :=
  plainObjects (store.objectsUnder bucket searchPrefix)

theorem wanted_ascending (store : Store) (bucket searchPrefix : Str) :
    Paging.Ascending S3Object.key (wantedObjects store bucket searchPrefix) :=
  (objectsUnder_ascending store bucket searchPrefix).filter _

theorem wanted_under {searchPrefix : Str} {object : S3Object}
    (member : object ∈ wantedObjects store bucket searchPrefix) : searchPrefix <+: object.key :=
  (mem_objectsUnder.mp (List.mem_map_of_mem (List.mem_of_mem_filter member))).1

/-- The objects under a longer prefix are those of the shorter one that go on with it. -/
theorem wanted_narrow {searchPrefix : Str} (within : searchPrefix <+: name) :
    wantedObjects store bucket name =
      (wantedObjects store bucket searchPrefix).filter fun object => decide (name <+: object.key) := by
  unfold wantedObjects plainObjects Store.objectsUnder
  rw [List.filter_filter, List.filter_map, List.filter_map, List.filter_filter, List.filter_filter]
  congr 1
  refine List.filter_congr fun entry _ => ?_
  by_cases under : name <+: entry.1
  · have inner : name.isPrefixOf entry.1 = true := List.isPrefixOf_iff_prefix.mpr under
    have outer : searchPrefix.isPrefixOf entry.1 = true :=
      List.isPrefixOf_iff_prefix.mpr (within.trans under)
    simp [under, inner, outer, storedObject]
  · have inner : name.isPrefixOf entry.1 = false :=
      Bool.eq_false_iff.mpr fun found => under (List.isPrefixOf_iff_prefix.mp found)
    simp [under, inner, storedObject]

def childrenParams (bucket searchPrefix : Str) : ListParams :=
  firstPage bucket searchPrefix (some ['/']) (some s3PageSize)

theorem group_iff_child {searchPrefix : Str} :
    .group name ∈ store.listing (childrenParams bucket searchPrefix) ↔
      IsChild searchPrefix name ∧ ∃ key, name <+: key ∧ store.get? bucket key ≠ none :=
  group_iff rfl

/-- What both steps have gathered of the store. -/
structure Gathered (store : Store) (bucket : Str) (maxKeys : Nat) (scan : BucketScan) : Prop where
  live : 0 < maxKeys
  counted : Scanned maxKeys (wantedObjects store bucket scan.searchPrefix) scan.scanned
    scan.complete
  listed : ∃ rest, (store.listing (childrenParams bucket scan.searchPrefix)).filterMap
      Listed.group? = scan.childPrefixes ++ rest ∧ (scan.prefixListComplete = true → rest = [])

theorem prefixStats_origin {searchPrefix : Str} {scanned : List S3Object}
    (member : name ∈ (prefixStats searchPrefix scanned).map Prod.fst) :
    ∃ object ∈ scanned, childPrefix searchPrefix object.key = some name := by
  induction scanned using List.reverseRecOn with
  | nil => cases member
  | append_singleton front object ih =>
      unfold prefixStats at ih member
      rw [List.foldl_append] at member
      simp only [List.foldl_cons, List.foldl_nil] at member
      have earlier (inFront : name ∈ (prefixStats searchPrefix front).map Prod.fst) :
          ∃ found ∈ front ++ [object], childPrefix searchPrefix found.key = some name := by
        obtain ⟨found, before, same⟩ := ih inFront
        exact ⟨found, List.mem_append_left _ before, same⟩
      cases child : childPrefix searchPrefix object.key with
      | none =>
          rw [child] at member
          exact earlier member
      | some found =>
          rw [child] at member
          obtain rfl | before := Assoc.mem_keys_set member
          · exact ⟨object, List.mem_append_right _ List.mem_cons_self, child⟩
          · exact earlier before

theorem Gathered.scanned_subset {maxKeys : Nat} (gathered : Gathered store bucket maxKeys scan)
    {object : S3Object} (member : object ∈ scan.scanned) :
    object ∈ wantedObjects store bucket scan.searchPrefix := by
  obtain ⟨rest, split, _⟩ := gathered.counted.split
  rw [split]
  exact List.mem_append_left _ member

theorem mem_allPrefixes : name ∈ allPrefixes scan ↔
    name ∈ scan.childPrefixes ∨
      name ∈ (prefixStats scan.searchPrefix scan.scanned).map Prod.fst := by
  rw [allPrefixes, List.mem_mergeSort, List.mem_dedup, List.mem_append]

theorem allPrefixes_nodup (scan : BucketScan) : (allPrefixes scan).Nodup :=
  (List.mergeSort_perm _ _).nodup_iff.mpr (List.nodup_dedup _)

theorem Gathered.child {maxKeys : Nat} (gathered : Gathered store bucket maxKeys scan)
    (member : name ∈ allPrefixes scan) : IsChild scan.searchPrefix name := by
  obtain listed | counted := mem_allPrefixes.mp member
  · obtain ⟨rest, split, _⟩ := gathered.listed
    have inGroups : name ∈ (store.listing (childrenParams bucket scan.searchPrefix)).filterMap
        Listed.group? := by
      rw [split]
      exact List.mem_append_left _ listed
    obtain ⟨line, shown, same⟩ := List.mem_filterMap.mp inGroups
    rw [group?_some same] at shown
    exact (group_iff_child.mp shown).1
  · obtain ⟨object, scanned, same⟩ := prefixStats_origin counted
    exact ((childPrefix_iff (wanted_under (gathered.scanned_subset scanned))).mp same).1

theorem childObjects_eq {searchPrefix : Str} (child : IsChild searchPrefix name)
    {objects : List S3Object} (under : ∀ object ∈ objects, searchPrefix <+: object.key) :
    childObjects searchPrefix name objects =
      objects.filter fun object => decide (name <+: object.key) := by
  refine List.filter_congr fun object member => ?_
  have same : childPrefix searchPrefix object.key = some name ↔ name <+: object.key :=
    ⟨fun found => ((childPrefix_iff (under object member)).mp found).2,
      fun below => childPrefix_under child below⟩
  exact decide_eq_decide.mpr same

variable {maxKeys : Nat}

theorem Gathered.under (gathered : Gathered store bucket maxKeys scan) {object : S3Object}
    (member : object ∈ scan.scanned) : scan.searchPrefix <+: object.key :=
  wanted_under (gathered.scanned_subset member)

/-- A scan that was cut has stopped at the last key it counted: none that it counted
lies behind, and all that it left do. -/
theorem Gathered.stop (gathered : Gathered store bucket maxKeys scan)
    (cut : scan.complete = false) :
    ∃ stop, scanStoppedAt scan = some stop ∧
      (∀ object ∈ scan.scanned, object.key ≤ stop) ∧
      ∃ rest, wantedObjects store bucket scan.searchPrefix = scan.scanned ++ rest ∧
        ∀ object ∈ rest, stop < object.key := by
  obtain ⟨rest, split, _⟩ := gathered.counted.split
  have ordered := wanted_ascending store bucket scan.searchPrefix
  rw [split] at ordered
  obtain ⟨inScanned, _, across⟩ := List.pairwise_append.mp ordered
  cases last : scan.scanned.getLast? with
  | none =>
      have empty := List.getLast?_eq_none_iff.mp last
      have full := gathered.counted.full cut
      rw [empty, List.length_nil] at full
      exact absurd full (Nat.not_le.mpr gathered.live)
  | some final =>
      have member := List.mem_of_getLast? last
      refine ⟨final.key, by simp [scanStoppedAt, cut, last], fun object counted => ?_, rest, split,
        fun object left => across final member object left⟩
      obtain ⟨front, whole⟩ := List.getLast?_eq_some_iff.mp last
      rw [whole] at inScanned counted
      obtain earlier | only := List.mem_append.mp counted
      · exact ((List.pairwise_append.mp inScanned).2.2 object earlier final
          List.mem_cons_self).le
      · rw [List.mem_singleton.mp only]

theorem Gathered.passed (gathered : Gathered store bucket maxKeys scan)
    (child : IsChild scan.searchPrefix name)
    (passed : scan.complete = true ∨ ∃ stop, scanStoppedAt scan = some stop ∧
      ¬ name <+: stop ∧ name < stop) :
    childObjects scan.searchPrefix name scan.scanned = wantedObjects store bucket name := by
  have within : scan.searchPrefix <+: name := by
    obtain ⟨segment, _, rfl⟩ := child
    exact (List.prefix_append _ _).trans (List.prefix_append _ _)
  rw [childObjects_eq child fun object => gathered.under, wanted_narrow within]
  cases whole : scan.complete with
  | true =>
      obtain ⟨rest, split, none⟩ := gathered.counted.split
      rw [split, none whole, List.append_nil]
  | false =>
      obtain ⟨stop, stopped, _, rest, split, behind⟩ := gathered.stop whole
      have lower : ¬ name <+: stop ∧ name < stop := by
        obtain complete | ⟨other, same, below⟩ := passed
        · rw [whole] at complete
          cases complete
        · obtain rfl := Option.some.inj (stopped.symm.trans same)
          exact below
      have none : rest.filter (fun object => decide (name <+: object.key)) = [] := by
        refine List.filter_eq_nil_iff.mpr fun object left => ?_
        intro under
        have before := lt_of_lower_front lower.2 lower.1 (of_decide_eq_true under)
        exact absurd (before.trans (behind object left)) (lt_irrefl _)
      rw [split, List.filter_append, none, List.append_nil]

end Gathered

section Sound

variable {store : Store} {bucket : Str} {scan : BucketScan} {maxKeys : Nat} {entry : PrefixEntry}

/-- Everything that a summary says of its coverage is true of the store. -/
structure CoverageSound (store : Store) (bucket : Str) (scan : BucketScan) : Prop where
  complete_entry : ∀ entry ∈ selectedEntries scan, entry.coverage = .complete →
    entry.objects = some (wantedObjects store bucket entry.commonPrefix).length ∧
      entry.bytes = some (scannedBytes (wantedObjects store bucket entry.commonPrefix))
  not_scanned_entry : ∀ entry ∈ selectedEntries scan, entry.coverage = .notScanned →
    ∀ object ∈ scan.scanned, ¬ entry.commonPrefix <+: object.key
  partly_entry : ∀ entry ∈ selectedEntries scan, entry.coverage = .partly →
    IsChild scan.searchPrefix entry.commonPrefix ∧
      ∃ stop, scanStoppedAt scan = some stop ∧ entry.commonPrefix <+: stop ∧
        ∀ other ∈ selectedEntries scan, other.coverage = .partly → other = entry
  totals : scan.complete = true → scan.scanned = wantedObjects store bucket scan.searchPrefix
  distinct : (allPrefixes scan).Nodup
  children : scan.prefixListComplete = true → ∀ name,
    IsChild scan.searchPrefix name → (∃ key, name <+: key ∧ store.get? bucket key ≠ none) →
      name ∈ allPrefixes scan

theorem selected_origin (member : entry ∈ selectedEntries scan) :
    ∃ name ∈ allPrefixes scan, entry = prefixEntry scan name := by
  have inEntries : entry ∈ prefixEntries scan := by
    unfold selectedEntries at member
    rw [List.mem_mergeSort, List.mem_append] at member
    obtain top | other := member
    · exact List.mem_of_mem_filter (List.mem_mergeSort.mp (List.mem_of_mem_take top))
    · exact List.mem_of_mem_filter (List.mem_of_mem_take other)
  obtain ⟨name, listed, same⟩ := List.mem_map.mp inEntries
  exact ⟨name, listed, same.symm⟩

@[simp] theorem prefixEntry_commonPrefix (name : Str) :
    (prefixEntry scan name).commonPrefix = name := by
  unfold prefixEntry
  split <;> rfl

@[simp] theorem prefixEntry_coverage (name : Str) : (prefixEntry scan name).coverage =
    coverageOf scan.complete (scanStoppedAt scan) name := by
  unfold prefixEntry
  split
  · next cut => exact cut.symm
  · rfl

theorem prefixEntry_counts {name : Str} (counted : (prefixEntry scan name).coverage ≠ .notScanned) :
    (prefixEntry scan name).objects =
        some (childObjects scan.searchPrefix name scan.scanned).length ∧
      (prefixEntry scan name).bytes =
        some (scannedBytes (childObjects scan.searchPrefix name scan.scanned)) := by
  rw [prefixEntry_coverage] at counted
  unfold prefixEntry
  split
  · next cut => exact absurd cut counted
  · rw [prefixStats_counts]
    exact ⟨rfl, rfl⟩

theorem coverage_complete {name : Str}
    (complete : coverageOf scan.complete (scanStoppedAt scan) name = .complete) :
    scan.complete = true ∨ ∃ stop, scanStoppedAt scan = some stop ∧
      ¬ name <+: stop ∧ name < stop := by
  unfold coverageOf at complete
  split_ifs at complete with whole
  · exact .inl whole
  · split at complete
    · cases complete
    · next stop stopped =>
        split_ifs at complete with within lower
        exact .inr ⟨stop, stopped, fun under => within (startsWith_iff.mpr under), lower⟩

theorem coverage_not_scanned {name stop : Str} (stopped : scanStoppedAt scan = some stop)
    (unseen : coverageOf scan.complete (scanStoppedAt scan) name = .notScanned) :
    ¬ name <+: stop ∧ ¬ name < stop := by
  unfold coverageOf at unseen
  rw [stopped] at unseen
  dsimp only at unseen
  split_ifs at unseen with whole within lower
  exact ⟨fun under => within (startsWith_iff.mpr under), lower⟩

theorem coverage_partly {name : Str}
    (partly : coverageOf scan.complete (scanStoppedAt scan) name = .partly) :
    ∃ stop, scanStoppedAt scan = some stop ∧ name <+: stop := by
  unfold coverageOf at partly
  split_ifs at partly
  split at partly
  · cases partly
  · next stop stopped =>
      split_ifs at partly with within
      exact ⟨stop, stopped, startsWith_iff.mp within⟩

theorem cut_of_not_scanned {name : Str}
    (unseen : coverageOf scan.complete (scanStoppedAt scan) name = .notScanned) :
    scan.complete = false := by
  unfold coverageOf at unseen
  split_ifs at unseen with whole
  exact Bool.eq_false_iff.mpr whole

/-- No counted object lies under a prefix that counts as not scanned. -/
theorem Gathered.unseen (gathered : Gathered store bucket maxKeys scan) {name : Str}
    (unscanned : coverageOf scan.complete (scanStoppedAt scan) name = .notScanned)
    {object : S3Object} (counted : object ∈ scan.scanned) : ¬ name <+: object.key := by
  obtain ⟨stop, stopped, reached, _⟩ := gathered.stop (cut_of_not_scanned unscanned)
  obtain ⟨apart, above⟩ := coverage_not_scanned stopped unscanned
  intro under
  have reach : name ≤ object.key := not_lt.mp fun below => absurd below under.le
  have upper : name ≤ stop := reach.trans (reached object counted)
  obtain lower | same := lt_or_eq_of_le upper
  · exact above lower
  · exact apart (same ▸ List.prefix_rfl)

theorem Gathered.sound (gathered : Gathered store bucket maxKeys scan) :
    CoverageSound store bucket scan where
  complete_entry entry member complete := by
    obtain ⟨name, listed, rfl⟩ := selected_origin member
    obtain ⟨objects, bytes⟩ := @prefixEntry_counts scan name (by rw [complete]; decide)
    rw [prefixEntry_coverage] at complete
    rw [objects, bytes, prefixEntry_commonPrefix,
      gathered.passed (gathered.child listed) (coverage_complete complete)]
    exact ⟨rfl, rfl⟩
  not_scanned_entry entry member unseen := by
    obtain ⟨name, listed, rfl⟩ := selected_origin member
    rw [prefixEntry_coverage] at unseen
    intro object scanned
    rw [prefixEntry_commonPrefix]
    exact gathered.unseen unseen scanned
  partly_entry entry member partly := by
    obtain ⟨name, listed, rfl⟩ := selected_origin member
    rw [prefixEntry_coverage] at partly
    obtain ⟨stop, stopped, within⟩ := coverage_partly partly
    rw [prefixEntry_commonPrefix]
    refine ⟨gathered.child listed, stop, stopped, within, fun other among again => ?_⟩
    obtain ⟨second, alsoListed, rfl⟩ := selected_origin among
    rw [prefixEntry_coverage] at again
    obtain ⟨stop', stopped', within'⟩ := coverage_partly again
    obtain rfl := Option.some.inj (stopped.symm.trans stopped')
    rw [isChild_unique (gathered.child listed) (gathered.child alsoListed) within within']
  totals complete := by
    obtain ⟨rest, split, none⟩ := gathered.counted.split
    rw [split, none complete, List.append_nil]
  distinct := allPrefixes_nodup scan
  children complete name child below := by
    obtain ⟨rest, split, none⟩ := gathered.listed
    have inGroups : name ∈ (store.listing (childrenParams bucket scan.searchPrefix)).filterMap
        Listed.group? :=
      List.mem_filterMap.mpr ⟨.group name, group_iff_child.mpr ⟨child, below⟩, rfl⟩
    rw [split, none complete, List.append_nil] at inGroups
    exact mem_allPrefixes.mpr (.inl inGroups)

end Sound

section Summarize

variable {unicode : Unicode} {config : Dict} {conventions : Conventions} {store : Store}
  {role : Option Str} {bucket searchPrefix : Str} {user : UserDict} {maxKeys prefixScanPages : Int}
  {scan : BucketScan}

theorem scan_live (maxKeys : Int) : 0 < (max minSummaryMaxKeys maxKeys).toNat := by
  rw [minSummaryMaxKeys]
  omega

/-- The callback of the scanning branch. -/
def scanBoth (pages : Nat) (bucket folder : Str) (maxKeys prefixScanPages : Int) :
    S3Program BucketSummary := do
  let children ← scanChildren ((max 1 prefixScanPages).toNat - 1) (childrenParams bucket folder) []
  let walk ← scanPages (max minSummaryMaxKeys maxKeys).toNat pages
    (firstPage bucket folder none (some s3PageSize)) []
  pure (.real ⟨folder, children.1, children.2, walk.1, walk.2⟩)

theorem walk_remaining (store : Store) (conventions : Conventions) (bucket folder : Str) :
    store.remaining conventions (firstPage bucket folder none (some s3PageSize)) =
      .ok ((store.objectsUnder bucket folder).map .object) := by
  have listed : store.listing (firstPage bucket folder none (some s3PageSize)) =
      (store.objectsUnder bucket folder).map .object := listing_plain rfl
  rw [← listed]
  rfl

theorem summary_page {folder : Str} {delimiter : Option Str} :
    0 < pageSize (firstPage bucket folder delimiter (some s3PageSize)) :=
  pageSize_pos (by simp [firstPage, s3PageSize])

theorem atomic_scanBoth (pages : Nat) (folder : Str) :
    Atomic conventions (scanBoth pages bucket folder maxKeys prefixScanPages) store
      fun summary after => after = store ∧ ∃ scan, summary = .real scan ∧
        scan.searchPrefix = folder ∧
        Gathered store bucket (max minSummaryMaxKeys maxKeys).toNat scan := by
  refine atomic_bind (@atomic_scanChildren conventions store (childrenParams bucket folder) _ _ []
    (folder_ascending rfl) summary_page rfl) fun children found => ?_
  refine atomic_bind (@atomic_scanPages conventions store
    (firstPage bucket folder none (some s3PageSize)) _ pages _ [] rfl summary_page
    (Nat.zero_le _) (walk_remaining store conventions bucket folder)) fun walk counted => ?_
  obtain ⟨shown, rest, split, all, complete⟩ := found
  refine atomic_pure ⟨rfl, _, rfl, rfl, scan_live maxKeys, counted.scanned, rest, ?_, complete⟩
  rw [split]
  exact congrArg (· ++ rest) all.symm

theorem summary_scans {listing : ListEntry} (pages : Nat)
    (prepared : prepareListPath unicode config role bucket user (rstripSlash searchPrefix) =
      .ok listing)
    (real : listing.virtualDirectories = none) :
    summarizeBucketForRole unicode config pages role bucket searchPrefix user maxKeys
        prefixScanPages =
      executeWithS3Retry unicode listing.validatedRole (scanBoth pages bucket
        (folderPrefix listing.effectivePath) maxKeys prefixScanPages) := by
  unfold summarizeBucketForRole gatedListing
  rw [prepared, ofResult_ok_bind, real]
  rfl

theorem summary_shows {listing : ListEntry} {directories : List FileEntry} (pages : Nat)
    (prepared : prepareListPath unicode config role bucket user (rstripSlash searchPrefix) =
      .ok listing)
    (virtual : listing.virtualDirectories = some directories) :
    summarizeBucketForRole unicode config pages role bucket searchPrefix user maxKeys
      prefixScanPages = pure (.virtual directories) := by
  unfold summarizeBucketForRole gatedListing
  rw [prepared, ofResult_ok_bind, virtual]

theorem summary_real {listing : ListEntry} (pages : Nat)
    (prepared : prepareListPath unicode config role bucket user (rstripSlash searchPrefix) =
      .ok listing)
    (real : listing.virtualDirectories = none) (world : World) :
    (summarizeBucketForRole unicode config pages role bucket searchPrefix user maxKeys
      prefixScanPages).run conventions world =
    (executeWithS3Retry unicode listing.validatedRole (scanBoth pages bucket
      (folderPrefix listing.effectivePath) maxKeys prefixScanPages)).run conventions world := by
  rw [summary_scans pages prepared real]

theorem summary_virtual {listing : ListEntry} {directories : List FileEntry} (pages : Nat)
    (prepared : prepareListPath unicode config role bucket user (rstripSlash searchPrefix) =
      .ok listing)
    (virtual : listing.virtualDirectories = some directories) (world : World) :
    (summarizeBucketForRole unicode config pages role bucket searchPrefix user maxKeys
      prefixScanPages).run conventions world = (.ok (.virtual directories), world) := by
  rw [summary_shows pages prepared virtual]
  rfl

theorem summary_gathered {pages : Nat} {faults : Nat → Option PyError} {scan : BucketScan}
    {after : World}
    (ran : (summarizeBucketForRole unicode config pages role bucket searchPrefix user maxKeys
      prefixScanPages).run conventions ⟨store, faults⟩ = (.ok (.real scan), after)) :
    (∃ listing, prepareListPath unicode config role bucket user (rstripSlash searchPrefix) =
        .ok listing ∧ scan.searchPrefix = folderPrefix listing.effectivePath) ∧
      Gathered store bucket (max minSummaryMaxKeys maxKeys).toNat scan := by
  cases prepared : prepareListPath unicode config role bucket user (rstripSlash searchPrefix) with
  | error exc =>
      unfold summarizeBucketForRole gatedListing at ran
      rw [prepared] at ran
      cases ran
  | ok listing =>
      cases virtual : listing.virtualDirectories with
      | some directories =>
          rw [summary_virtual pages prepared virtual] at ran
          cases ran
      | none =>
          have holds := (@atomic_retry _ _ _ unicode listing.validatedRole _ _
            (@atomic_scanBoth conventions store bucket maxKeys prefixScanPages pages
              (folderPrefix listing.effectivePath))) faults
          rw [summary_real pages prepared virtual] at ran
          rw [ran] at holds
          obtain ⟨_, found, same, folder, gathered⟩ := holds
          obtain rfl := BucketSummary.real.inj same
          exact ⟨⟨listing, rfl, folder⟩, gathered⟩

/-- The numbers of the answer that speak of the whole path. -/
structure TotalsShown (answer : Dict) (scan : BucketScan) (wanted : List S3Object) : Prop where
  prefixes : dictGet answer "prefixes" = .arr ((selectedEntries scan).map PrefixEntry.json)
  count : dictGet answer "prefix_count" = .int (allPrefixes scan).length
  complete : dictGet answer "complete" = .bool true →
    dictGet answer "total_objects" = .int wanted.length ∧
      dictGet answer "total_bytes" = .int (scannedBytes wanted)

theorem CoverageSound.totalsShown (sound : CoverageSound store bucket scan)
    (formats : SummaryFormats) :
    TotalsShown (scanResponse unicode formats bucket scan) scan
      (wantedObjects store bucket scan.searchPrefix) where
  prefixes := rfl
  count := rfl
  complete whole := by
    have done : scan.complete = true := Json.bool.inj whole
    rw [← sound.totals done]
    unfold dictGet scanResponse
    simp only [done, if_true]
    exact ⟨rfl, rfl⟩

/-- The coverage of a bucket summary never lies. -/
theorem coverage_never_lies (unicode : Unicode) (config : Dict) (conventions : Conventions)
    (store : Store) (pages : Nat) (role : Option Str) (bucket searchPrefix : Str)
    (user : UserDict) (maxKeys prefixScanPages : Int) (faults : Nat → Option PyError)
    (scan : BucketScan) (after : World)
    (ran : (summarizeBucketForRole unicode config pages role bucket searchPrefix user maxKeys
      prefixScanPages).run conventions ⟨store, faults⟩ = (.ok (.real scan), after)) :
    (∃ listing, prepareListPath unicode config role bucket user (rstripSlash searchPrefix) =
        .ok listing ∧ scan.searchPrefix = folderPrefix listing.effectivePath) ∧
      CoverageSound store bucket scan ∧
      ∀ formats, TotalsShown (scanResponse unicode formats bucket scan) scan
        (wantedObjects store bucket scan.searchPrefix) := by
  obtain ⟨folder, gathered⟩ := summary_gathered ran
  exact ⟨folder, gathered.sound, gathered.sound.totalsShown⟩

/-- One folder and one object at the root. -/
def summaryStore : Store where
  bucketNames := [lit "data"]
  objects _ := (OrderedMap.empty.insert (lit "a/x") ⟨[1], none, []⟩).insert (lit "b")
    ⟨[2, 3], none, []⟩
  now := []

theorem coverage_never_lies_summaryStore :
    ∃ scan : BucketScan, scan.complete = true ∧
      CoverageSound summaryStore (lit "data") scan ∧
      ∀ formats, TotalsShown (scanResponse Unicode.ascii formats (lit "data") scan) scan
        (wantedObjects summaryStore (lit "data") scan.searchPrefix) := by
  refine ⟨_, ?_, (coverage_never_lies Unicode.ascii [] Conventions.plain summaryStore 1 none
    (lit "data") [] ⟨true, [], none⟩ 1000 1 (fun _ => none) _ _ rfl).2⟩
  rfl

end Summarize

end S3Manager.Storage
