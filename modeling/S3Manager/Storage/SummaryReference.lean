import Mathlib.Algebra.BigOperators.Group.List.Basic
import S3Manager.Library.Best
import S3Manager.Storage.PageSplits

/-! A bucket summary against its reference: what it counts, what its tables sum up to,
and which prefixes and objects it reports, however S3 cuts the listing into pages. -/

set_option autoImplicit false

namespace S3Manager.Storage

open Python Access Library

section Tallies

variable {name : Str} {stats : Tally}

def tallyObjects (stats : Tally) : Nat :=
  (stats.map fun entry => entry.2.1).sum

def tallyBytes (stats : Tally) : Nat :=
  (stats.map fun entry => entry.2.2).sum

/-- Setting an entry moves a sum by what the entry counted before and counts now. -/
theorem sum_set {measure : Nat × Nat → Nat} (nothing : measure (0, 0) = 0) (stats : Tally)
    (name : Str) (counts : Nat × Nat) :
    ((Assoc.set stats name counts).map fun entry => measure entry.2).sum +
        measure ((Assoc.get? stats name).getD (0, 0)) =
      (stats.map fun entry => measure entry.2).sum + measure counts := by
  induction stats with
  | nil => simp [Assoc.set, nothing]
  | cons entry rest ih =>
      obtain ⟨found, old⟩ := entry
      unfold Assoc.set Assoc.get?
      split_ifs with same
      · simp only [List.map_cons, List.sum_cons, Option.getD_some]
        omega
      · simp only [List.map_cons, List.sum_cons]
        omega

theorem tally_objects (stats : Tally) (name : Str) (size : Nat) :
    tallyObjects (tally stats name size) = tallyObjects stats + 1 := by
  have moved := @sum_set Prod.fst rfl stats name
    (((Assoc.get? stats name).getD (0, 0)).1 + 1, ((Assoc.get? stats name).getD (0, 0)).2 + size)
  unfold tallyObjects tally
  dsimp only at moved ⊢
  omega

theorem tally_bytes (stats : Tally) (name : Str) (size : Nat) :
    tallyBytes (tally stats name size) = tallyBytes stats + size := by
  have moved := @sum_set Prod.snd rfl stats name
    (((Assoc.get? stats name).getD (0, 0)).1 + 1, ((Assoc.get? stats name).getD (0, 0)).2 + size)
  unfold tallyBytes tally
  dsimp only at moved ⊢
  omega

/-- The objects that fall under no child prefix, and those counted under one. -/
theorem prefixStats_objects (searchPrefix : Str) (scanned : List S3Object) :
    scanned.length =
      rootObjects searchPrefix scanned + tallyObjects (prefixStats searchPrefix scanned) := by
  induction scanned using List.reverseRecOn with
  | nil => rfl
  | append_singleton front object ih =>
      unfold rootObjects prefixStats at ih ⊢
      rw [List.foldl_append, List.countP_append, List.length_append]
      simp only [List.foldl_cons, List.foldl_nil, List.countP_singleton, List.length_singleton]
      cases child : childPrefix searchPrefix object.key with
      | none => simp only [Option.isNone_none, if_true]; omega
      | some found =>
          simp only [Option.isNone_some, Bool.false_eq_true, if_false]
          rw [tally_objects]
          omega

theorem prefixStats_nodup (searchPrefix : Str) (scanned : List S3Object) :
    ((prefixStats searchPrefix scanned).map Prod.fst).Nodup := by
  induction scanned using List.reverseRecOn with
  | nil => exact List.nodup_nil
  | append_singleton front object ih =>
      unfold prefixStats at ih ⊢
      rw [List.foldl_append]
      simp only [List.foldl_cons, List.foldl_nil]
      cases childPrefix searchPrefix object.key with
      | none => exact ih
      | some found => exact Assoc.nodup_keys_set _ _ ih

theorem extensionStats_sums (unicode : Unicode) (searchPrefix : Str) (scanned : List S3Object) :
    tallyObjects (extensionStats unicode searchPrefix scanned) = scanned.length ∧
      tallyBytes (extensionStats unicode searchPrefix scanned) = scannedBytes scanned := by
  induction scanned using List.reverseRecOn with
  | nil => exact ⟨rfl, rfl⟩
  | append_singleton front object ih =>
      unfold extensionStats scannedBytes at ih ⊢
      rw [List.foldl_append, List.length_append, List.map_append, List.sum_append]
      simp only [List.foldl_cons, List.foldl_nil, List.map_cons, List.map_nil, List.sum_singleton,
        List.length_singleton]
      rw [tally_objects, tally_bytes, ih.1, ih.2]
      exact ⟨rfl, rfl⟩

theorem extensionEntries_sums (unicode : Unicode) (searchPrefix : Str)
    (scanned : List S3Object) :
    tallyObjects (extensionEntries unicode searchPrefix scanned) = scanned.length ∧
      tallyBytes (extensionEntries unicode searchPrefix scanned) = scannedBytes scanned := by
  have same : (extensionEntries unicode searchPrefix scanned).Perm
      (extensionStats unicode searchPrefix scanned) := List.mergeSort_perm _ _
  obtain ⟨objects, bytes⟩ := extensionStats_sums unicode searchPrefix scanned
  exact ⟨(same.map _).sum_eq.trans objects, (same.map _).sum_eq.trans bytes⟩

end Tallies

section Largest

instance : Std.Total heapBelow where
  total left right := by
    obtain smaller | same | larger := Nat.lt_trichotomy left.size right.size
    · exact .inl (.inl smaller)
    · obtain lower | higher := le_total left.key right.key
      · exact .inl (.inr ⟨same, lower⟩)
      · exact .inr (.inr ⟨same.symm, higher⟩)
    · exact .inr (.inl larger)

instance : IsTrans S3Object heapBelow where
  trans first second third := by
    rintro (smaller | ⟨same, before⟩) (lesser | ⟨equal, after⟩)
    · exact .inl (smaller.trans lesser)
    · exact .inl (equal ▸ smaller)
    · exact .inl (same ▸ lesser)
    · exact .inr ⟨same.trans equal, before.trans after⟩

theorem largest_greatest (scanned : List S3Object) :
    HoldsGreatest heapBelow topLargest scanned (scanned.foldl pushLargest []) :=
  holdsGreatest_foldl scanned

theorem largestObjects_best (scanned : List S3Object) :
    Best (fun winner loser => heapBelow loser winner) topLargest scanned
      (largestObjects scanned) :=
  (largest_greatest scanned).best.of_perm (List.reverse_perm _)

theorem largestObjects_ordered (scanned : List S3Object) :
    (largestObjects scanned).Pairwise fun first second => heapBelow second first :=
  List.pairwise_reverse.mpr (largest_greatest scanned).ordered

end Largest

section Prefixes

variable (scan : BucketScan)

/-- The counted objects under a prefix. -/
def countedUnder (name : Str) : List S3Object :=
  scan.scanned.filter fun object => decide (name <+: object.key)

/-- Most counted objects first, ties by name. -/
def RanksBefore (left right : PrefixEntry) : Prop :=
  (countedUnder scan right.commonPrefix).length < (countedUnder scan left.commonPrefix).length ∨
    (countedUnder scan left.commonPrefix).length = (countedUnder scan right.commonPrefix).length ∧
      left.commonPrefix ≤ right.commonPrefix

def scannedEntries : List PrefixEntry :=
  (prefixEntries scan).filter fun entry => entry.coverage ≠ .notScanned

def unscannedEntries : List PrefixEntry :=
  (prefixEntries scan).filter fun entry => entry.coverage = .notScanned

/-- The reported prefixes against the prefixes that are known. -/
structure PrefixReference : Prop where
  known : ∀ object ∈ scan.scanned, ∀ name, IsChild scan.searchPrefix name → name <+: object.key →
    ∃ entry ∈ scannedEntries scan, entry.commonPrefix = name
  scanned : ∀ entry ∈ scannedEntries scan, IsChild scan.searchPrefix entry.commonPrefix ∧
    entry.objects = some (countedUnder scan entry.commonPrefix).length ∧
    entry.bytes = some (scannedBytes (countedUnder scan entry.commonPrefix))
  unscanned : ∀ entry ∈ unscannedEntries scan, IsChild scan.searchPrefix entry.commonPrefix ∧
    entry.objects = none ∧ countedUnder scan entry.commonPrefix = []
  chosen : ∃ top others, Best (RanksBefore scan) topPrefixes (scannedEntries scan) top ∧
    Best (fun first second => first.commonPrefix ≤ second.commonPrefix)
      (topPrefixes - top.length) (unscannedEntries scan) others ∧
    (selectedEntries scan).Perm (top ++ others)
  ordered : (selectedEntries scan).Pairwise fun first second =>
    first.commonPrefix < second.commonPrefix

variable {scan} {entry : PrefixEntry} {name : Str}

theorem prefixEntries_ascending (scan : BucketScan) :
    (prefixEntries scan).Pairwise fun first second =>
      first.commonPrefix < second.commonPrefix := by
  have sorted : (allPrefixes scan).Pairwise fun left right => decide (left ≤ right) = true :=
    List.pairwise_mergeSort (fun _ _ _ first second => decide_eq_true
      ((of_decide_eq_true first).trans (of_decide_eq_true second))) (fun left right => by
        simpa using le_total left right) _
  have distinct : (allPrefixes scan).Pairwise (· ≠ ·) := allPrefixes_nodup scan
  unfold prefixEntries
  refine List.pairwise_map.mpr ((sorted.and distinct).imp fun {left right} both => ?_)
  rw [prefixEntry_commonPrefix, prefixEntry_commonPrefix]
  exact lt_of_le_of_ne (of_decide_eq_true both.1) both.2

theorem selectedEntries_perm (scan : BucketScan) :
    ∃ top others, Best (fun left right => byObjects left right = true) topPrefixes
        (scannedEntries scan) top ∧
      Best (fun first second => first.commonPrefix ≤ second.commonPrefix)
        (topPrefixes - top.length) (unscannedEntries scan) others ∧
      (selectedEntries scan).Perm (top ++ others) := by
  refine ⟨_, _, Best.of_mergeSort ?_ ?_ _, Best.of_sorted (List.Perm.refl _) ?_,
    List.mergeSort_perm _ _⟩
  · intro first second third
    unfold byObjects
    simp only [Bool.or_eq_true, Bool.and_eq_true, decide_eq_true_eq]
    rintro (more | ⟨same, before⟩) (fewer | ⟨equal, after⟩)
    · exact .inl (fewer.trans more)
    · exact .inl (equal ▸ more)
    · exact .inl (same ▸ fewer)
    · exact .inr ⟨same.trans equal, before.trans after⟩
  · intro first second
    unfold byObjects
    simp only [Bool.or_eq_true, Bool.and_eq_true, decide_eq_true_eq]
    obtain fewer | same | more := Nat.lt_trichotomy (first.objects.getD 0) (second.objects.getD 0)
    · exact .inr (.inl fewer)
    · obtain lower | higher := le_total first.commonPrefix second.commonPrefix
      · exact .inl (.inr ⟨same, lower⟩)
      · exact .inr (.inr ⟨same.symm, higher⟩)
    · exact .inl (.inl more)
  · exact ((prefixEntries_ascending scan).filter _).imp le_of_lt

theorem prefixEntry_none (unscanned : (prefixEntry scan name).coverage = .notScanned) :
    (prefixEntry scan name).objects = none := by
  rw [prefixEntry_coverage] at unscanned
  unfold prefixEntry
  rw [unscanned]

theorem mem_prefixStats {object : S3Object} (counted : object ∈ scan.scanned)
    (child : childPrefix scan.searchPrefix object.key = some name) :
    name ∈ (prefixStats scan.searchPrefix scan.scanned).map Prod.fst := by
  have some : 0 < (childObjects scan.searchPrefix name scan.scanned).length :=
    List.length_pos_of_mem (List.mem_filter.mpr ⟨counted, decide_eq_true child⟩)
  have counts := prefixStats_counts scan.searchPrefix name scan.scanned
  cases found : Assoc.get? (prefixStats scan.searchPrefix scan.scanned) name with
  | none =>
      rw [found] at counts
      have empty := (Prod.mk.inj counts).1
      omega
  | some _ => exact List.mem_map_of_mem (Assoc.mem_of_get? found)

section Gathering

variable {store : Store} {bucket : Str} {maxKeys : Nat}

theorem Gathered.childObjects (gathered : Gathered store bucket maxKeys scan)
    (child : IsChild scan.searchPrefix name) :
    childObjects scan.searchPrefix name scan.scanned = countedUnder scan name :=
  childObjects_eq child fun _ => gathered.under

theorem mem_scannedEntries : entry ∈ scannedEntries scan ↔ ∃ name ∈ allPrefixes scan,
    prefixEntry scan name = entry ∧ entry.coverage ≠ .notScanned := by
  unfold scannedEntries prefixEntries
  rw [List.mem_filter, List.mem_map, decide_eq_true_eq]
  exact ⟨fun ⟨⟨name, listed, same⟩, covered⟩ => ⟨name, listed, same, covered⟩,
    fun ⟨name, listed, same, covered⟩ => ⟨⟨name, listed, same⟩, covered⟩⟩

theorem Gathered.scanned_entry (gathered : Gathered store bucket maxKeys scan)
    (member : entry ∈ scannedEntries scan) : IsChild scan.searchPrefix entry.commonPrefix ∧
      entry.objects = some (countedUnder scan entry.commonPrefix).length ∧
      entry.bytes = some (scannedBytes (countedUnder scan entry.commonPrefix)) := by
  obtain ⟨name, listed, rfl, covered⟩ := mem_scannedEntries.mp member
  obtain ⟨objects, bytes⟩ := prefixEntry_counts covered
  have child := gathered.child listed
  rw [objects, bytes, prefixEntry_commonPrefix, gathered.childObjects child]
  exact ⟨child, rfl, rfl⟩

theorem Gathered.unscanned_entry (gathered : Gathered store bucket maxKeys scan)
    (member : entry ∈ unscannedEntries scan) : IsChild scan.searchPrefix entry.commonPrefix ∧
      entry.objects = none ∧ countedUnder scan entry.commonPrefix = [] := by
  obtain ⟨listed, unscanned⟩ := List.mem_filter.mp member
  obtain ⟨name, known, rfl⟩ := List.mem_map.mp listed
  have uncovered := of_decide_eq_true unscanned
  refine ⟨?_, prefixEntry_none uncovered, List.filter_eq_nil_iff.mpr fun object counted => ?_⟩
  · rw [prefixEntry_commonPrefix]
    exact gathered.child known
  · rw [prefixEntry_commonPrefix, decide_eq_true_eq]
    rw [prefixEntry_coverage] at uncovered
    exact gathered.unseen uncovered counted

theorem Gathered.ranks (gathered : Gathered store bucket maxKeys scan) {winner loser : PrefixEntry}
    (won : winner ∈ scannedEntries scan) (lost : loser ∈ scannedEntries scan)
    (ahead : byObjects winner loser = true) : RanksBefore scan winner loser := by
  obtain ⟨_, winnerObjects, _⟩ := gathered.scanned_entry won
  obtain ⟨_, loserObjects, _⟩ := gathered.scanned_entry lost
  unfold byObjects at ahead
  rw [winnerObjects, loserObjects] at ahead
  simpa [RanksBefore] using ahead

/-- Nothing is reported twice, for the known prefixes have different names. -/
theorem selectedEntries_ascending (scan : BucketScan) :
    (selectedEntries scan).Pairwise fun first second =>
      first.commonPrefix < second.commonPrefix := by
  obtain ⟨top, others, best, next, same⟩ := selectedEntries_perm scan
  obtain ⟨lost, ranked, _⟩ := best.split
  obtain ⟨left, filled, _⟩ := next.split
  have parts : (scannedEntries scan ++ unscannedEntries scan).Perm (prefixEntries scan) := by
    have halves := List.filter_append_perm
      (fun entry : PrefixEntry => decide (entry.coverage ≠ .notScanned)) (prefixEntries scan)
    simpa [scannedEntries, unscannedEntries] using halves
  have whole : ((top ++ others) ++ (lost ++ left)).Perm (prefixEntries scan) := by
    refine List.Perm.trans ?_ ((ranked.append filled).trans parts)
    rw [List.append_assoc, List.append_assoc]
    exact (List.perm_append_comm_assoc others lost left).append_left top
  have names : ((prefixEntries scan).map PrefixEntry.commonPrefix).Nodup :=
    List.pairwise_map.mpr ((prefixEntries_ascending scan).imp ne_of_lt)
  have distinct : (selectedEntries scan).Pairwise fun first second =>
      first.commonPrefix ≠ second.commonPrefix := by
    have shown : (((top ++ others) ++ (lost ++ left)).map PrefixEntry.commonPrefix).Nodup :=
      (whole.map _).nodup_iff.mpr names
    rw [List.map_append] at shown
    exact List.pairwise_map.mp ((same.map _).nodup_iff.mpr (List.nodup_append.mp shown).1)
  have sorted : (selectedEntries scan).Pairwise fun first second =>
      decide (first.commonPrefix ≤ second.commonPrefix) = true :=
    List.pairwise_mergeSort (fun _ _ _ first second => decide_eq_true
      ((of_decide_eq_true first).trans (of_decide_eq_true second))) (fun left right => by
        simpa using le_total left.commonPrefix right.commonPrefix) _
  exact (sorted.and distinct).imp fun both => lt_of_le_of_ne (of_decide_eq_true both.1) both.2

theorem Gathered.prefixReference (gathered : Gathered store bucket maxKeys scan) :
    PrefixReference scan where
  known object counted name child under := by
    have listed : name ∈ allPrefixes scan :=
      mem_allPrefixes.mpr (.inr (mem_prefixStats counted (childPrefix_under child under)))
    refine ⟨_, mem_scannedEntries.mpr ⟨name, listed, rfl, fun unscanned => ?_⟩,
      prefixEntry_commonPrefix name⟩
    rw [prefixEntry_coverage] at unscanned
    exact gathered.unseen unscanned counted under
  scanned _ member := gathered.scanned_entry member
  unscanned _ member := gathered.unscanned_entry member
  chosen := by
    obtain ⟨top, others, best, next, same⟩ := selectedEntries_perm scan
    exact ⟨top, others, best.mono fun _ won _ lost => gathered.ranks won lost, next, same⟩
  ordered := selectedEntries_ascending scan

end Gathering

end Prefixes

section Reference

variable (unicode : Unicode) (store : Store) (bucket : Str)

/-- What a summary of a scan has to say, in terms of the keys under its path. -/
structure SummaryReference (maxKeys : Nat) (scan : BucketScan) : Prop where
  counted : scan.scanned = (wantedObjects store bucket scan.searchPrefix).take maxKeys
  conserved : scan.scanned.length = rootObjects scan.searchPrefix scan.scanned +
    tallyObjects (prefixStats scan.searchPrefix scan.scanned)
  perChild : ∀ name counts, (name, counts) ∈ prefixStats scan.searchPrefix scan.scanned →
    IsChild scan.searchPrefix name ∧
      counts = ((countedUnder scan name).length, scannedBytes (countedUnder scan name))
  extensionObjects : tallyObjects (extensionEntries unicode scan.searchPrefix scan.scanned) =
    scan.scanned.length
  extensionBytes : tallyBytes (extensionEntries unicode scan.searchPrefix scan.scanned) =
    scannedBytes scan.scanned
  prefixes : PrefixReference scan
  largest : Best (fun winner loser => heapBelow loser winner) topLargest scan.scanned
    (largestObjects scan.scanned)
  largestOrder : (largestObjects scan.scanned).Pairwise fun first second =>
    heapBelow second first

/-- The fields of the answer that the reference is about. -/
structure ReferenceShown (scan : BucketScan) (answer : Dict) : Prop where
  objects : dictGet answer "scanned_objects" = .int scan.scanned.length
  bytes : dictGet answer "scanned_bytes" = .int (scannedBytes scan.scanned)
  root : dictGet answer "root_objects" = .int (rootObjects scan.searchPrefix scan.scanned)
  prefixes : dictGet answer "prefixes" = .arr ((selectedEntries scan).map PrefixEntry.json)
  extensions : dictGet answer "extensions" =
    .arr (((extensionEntries unicode scan.searchPrefix scan.scanned).take topExtensions).map
      fun entry => .obj [(lit "ext", .str entry.1), (lit "objects", .int entry.2.1),
        (lit "bytes", .int entry.2.2)])
  largest : dictGet answer "largest_objects" = .arr ((largestObjects scan.scanned).map
    fun object => .obj [(lit "key", .str object.key), (lit "size", .int object.size),
      (lit "last_modified", .str object.lastModified)])

theorem referenceShown (formats : SummaryFormats) (scan : BucketScan) :
    ReferenceShown unicode scan (scanResponse unicode formats bucket scan) :=
  ⟨rfl, rfl, rfl, rfl, rfl, rfl⟩

variable {unicode store bucket} {maxKeys : Nat} {scan : BucketScan}

theorem Gathered.perChild (gathered : Gathered store bucket maxKeys scan) {name : Str}
    {counts : Nat × Nat} (member : (name, counts) ∈ prefixStats scan.searchPrefix scan.scanned) :
    IsChild scan.searchPrefix name ∧
      counts = ((countedUnder scan name).length, scannedBytes (countedUnder scan name)) := by
  have child : IsChild scan.searchPrefix name :=
    gathered.child (mem_allPrefixes.mpr (.inr (List.mem_map_of_mem member)))
  have found := Assoc.get?_of_mem (prefixStats_nodup scan.searchPrefix scan.scanned) member
  have counted := prefixStats_counts scan.searchPrefix name scan.scanned
  rw [found, gathered.childObjects child] at counted
  exact ⟨child, counted⟩

theorem Gathered.reference (unicode : Unicode) (gathered : Gathered store bucket maxKeys scan)
    (counted : scan.scanned = (wantedObjects store bucket scan.searchPrefix).take maxKeys) :
    SummaryReference unicode store bucket maxKeys scan where
  counted := counted
  conserved := prefixStats_objects scan.searchPrefix scan.scanned
  perChild _ _ := gathered.perChild
  extensionObjects := (extensionEntries_sums unicode scan.searchPrefix scan.scanned).1
  extensionBytes := (extensionEntries_sums unicode scan.searchPrefix scan.scanned).2
  prefixes := gathered.prefixReference
  largest := largestObjects_best scan.scanned
  largestOrder := largestObjects_ordered scan.scanned

end Reference

section Summarize

variable {unicode : Unicode} {config : Dict} {store : Store} {pager : Pager store}
  {role : Option Str} {bucket searchPrefix : Str} {user : UserDict} {maxKeys prefixScanPages : Int}
  {listing : ListEntry}

theorem sends_scanBoth (unicode : Unicode) (pages : Nat) (folder : Str) :
    (scanBoth pages bucket folder maxKeys prefixScanPages).Sends SummaryRequest pager.Answers
      fun summary => ∃ scan, summary = .real scan ∧ scan.searchPrefix = folder ∧
        SummaryReference unicode store bucket (max minSummaryMaxKeys maxKeys).toNat scan := by
  have plain : pager.left (firstPage bucket folder none (some s3PageSize)) =
      (store.objectsUnder bucket folder).map .object :=
    (pager.start _ rfl).trans (listing_plain rfl)
  refine (sends_bind _ _ _).mpr (sends_mono (@sends_scanChildren store pager
    (childrenParams bucket folder) _ _ [] rfl summary_page (pager.start _ rfl)) ?_)
  rintro children ⟨shown, rest, split, all, complete⟩
  refine (sends_bind _ _ _).mpr (sends_mono (sends_scanPages pages rfl summary_page
    (Nat.zero_le _) plain) fun walk capped => (sends_ok _ _).mpr ⟨_, rfl, rfl, ?_⟩)
  have gathered : Gathered store bucket (max minSummaryMaxKeys maxKeys).toNat
      ⟨folder, children.1, children.2, walk.1, walk.2⟩ := by
    refine ⟨scan_live maxKeys, capped.scanned, rest, ?_, complete⟩
    rw [split]
    exact congrArg (· ++ rest) all.symm
  exact gathered.reference unicode capped.counted

/-- What a summary returns: the synthetic folders, and no scan, or a scan of the folder
that answers to the reference. -/
def Accounts (unicode : Unicode) (store : Store) (bucket : Str) (listing : ListEntry)
    (maxKeys : Nat) : BucketSummary → Prop
  | .virtual directories => listing.virtualDirectories = some directories
  | .real scan => listing.virtualDirectories = none ∧
      scan.searchPrefix = folderPrefix listing.effectivePath ∧
      SummaryReference unicode store bucket maxKeys scan ∧
      ∀ formats, ReferenceShown unicode scan (scanResponse unicode formats bucket scan)

theorem sends_summary (pages : Nat)
    (prepared : prepareListPath unicode config role bucket user (rstripSlash searchPrefix) =
      .ok listing) :
    (summarizeBucketForRole unicode config pages role bucket searchPrefix user maxKeys
      prefixScanPages).Sends SummaryRequest pager.Answers
      (Accounts unicode store bucket listing (max minSummaryMaxKeys maxKeys).toNat) := by
  cases virtual : listing.virtualDirectories with
  | some directories =>
      rw [summary_shows pages prepared virtual]
      exact (sends_ok _ _).mpr virtual
  | none =>
      rw [summary_scans pages prepared virtual]
      refine executeWithS3Retry_sends_iff.mpr (sends_mono (sends_scanBoth unicode pages _) ?_)
      rintro _ ⟨scan, rfl, folder, reference⟩
      exact ⟨virtual, folder, reference, fun formats => referenceShown unicode bucket formats scan⟩

theorem completes_summary {pages : Nat}
    (prepared : prepareListPath unicode config role bucket user (rstripSlash searchPrefix) =
      .ok listing)
    (enough : (store.objectsUnder bucket (folderPrefix listing.effectivePath)).length ≤ pages) :
    (summarizeBucketForRole unicode config pages role bucket searchPrefix user maxKeys
      prefixScanPages).Completes pager := by
  cases virtual : listing.virtualDirectories with
  | some directories =>
      rw [summary_shows pages prepared virtual]
      exact completes_pure _
  | none =>
      rw [summary_scans pages prepared virtual]
      have plain : pager.left (firstPage bucket (folderPrefix listing.effectivePath) none
          (some s3PageSize)) =
          (store.objectsUnder bucket (folderPrefix listing.effectivePath)).map .object :=
        (pager.start _ rfl).trans (listing_plain rfl)
      refine completes_retry (completes_bind (completes_scanChildren _) fun children => ?_)
      exact completes_bind (completes_scanPages pages (Nat.zero_le _) plain enough) fun walk =>
        completes_pure _

/-- However S3 cuts its listings and whichever calls fail, a summary that is returned
answers to the reference, and one is returned when no call fails. -/
theorem summary_equals_reference (unicode : Unicode) (config : Dict) (store : Store)
    (pager : Pager store) (role : Option Str) (bucket searchPrefix : Str) (user : UserDict)
    (maxKeys prefixScanPages : Int) (listing : ListEntry)
    (prepared : prepareListPath unicode config role bucket user (rstripSlash searchPrefix) =
      .ok listing) :
    (∀ pages, (summarizeBucketForRole unicode config pages role bucket searchPrefix user maxKeys
        prefixScanPages).Sends SummaryRequest pager.Answers
        (Accounts unicode store bucket listing (max 1000 maxKeys).toNat)) ∧
      ∀ pages, (store.objectsUnder bucket (folderPrefix listing.effectivePath)).length ≤ pages →
        (summarizeBucketForRole unicode config pages role bucket searchPrefix user maxKeys
          prefixScanPages).Completes pager :=
  ⟨fun pages => sends_summary pages prepared, fun _ => completes_summary prepared⟩

theorem summary_equals_reference_summaryStore :
    ∃ listing, prepareListPath Unicode.ascii [] none (lit "data") ⟨true, [], none⟩
        (rstripSlash []) = .ok listing ∧
      (∀ pages, (summarizeBucketForRole Unicode.ascii [] pages none (lit "data") []
        ⟨true, [], none⟩ 1000 1).Sends SummaryRequest
          (summaryStore.pager Conventions.plain).Answers
          (Accounts Unicode.ascii summaryStore (lit "data") listing (max 1000 1000 : Int).toNat)) ∧
      ∀ pages, (summaryStore.objectsUnder (lit "data")
          (folderPrefix listing.effectivePath)).length ≤ pages →
        (summarizeBucketForRole Unicode.ascii [] pages none (lit "data") [] ⟨true, [], none⟩
          1000 1).Completes (summaryStore.pager Conventions.plain) :=
  ⟨_, rfl, summary_equals_reference Unicode.ascii [] summaryStore
    (summaryStore.pager Conventions.plain) none (lit "data") [] ⟨true, [], none⟩ 1000 1 _ rfl⟩

/-- The store that lists whole pages answers to the reference too, with any faults. -/
theorem summary_run {conventions : Conventions} {pages : Nat} {world after : World}
    {summary : BucketSummary}
    (prepared : prepareListPath unicode config role bucket user (rstripSlash searchPrefix) =
      .ok listing)
    (ran : (summarizeBucketForRole unicode config pages role bucket searchPrefix user maxKeys
      prefixScanPages).run conventions world = (.ok summary, after)) :
    Accounts unicode world.store bucket listing (max minSummaryMaxKeys maxKeys).toNat summary ∧
      after.store = world.store :=
  run_of_answers (@sends_summary _ _ _ (world.store.pager conventions) _ _ _ _ _ _ _ pages prepared)
    (fun _ ⟨params, same, _⟩ => ⟨params, same⟩) (fun _ _ => store_cut) ran

end Summarize

end S3Manager.Storage
