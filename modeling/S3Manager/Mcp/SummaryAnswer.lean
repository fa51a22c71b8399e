import S3Manager.Mcp.Ladder
import S3Manager.Storage.SummaryCoverage

/-! What a permitted call of `bucket_summary` is answered. -/

set_option autoImplicit false

namespace S3Manager.Mcp

open Python Access Storage Library

section Schema

/-- The fields of the scanning branch. -/
def summaryFields : List Str :=
  [lit "bucket", lit "path", lit "complete", lit "note", lit "scanned_objects",
    lit "scanned_bytes", lit "scanned_bytes_human", lit "total_objects", lit "total_bytes",
    lit "total_bytes_human", lit "scan_stopped_at", lit "root_objects", lit "prefixes",
    lit "prefix_count", lit "prefix_list_complete", lit "prefixes_truncated", lit "extensions",
    lit "extension_count", lit "extensions_truncated", lit "largest_objects",
    lit "oldest_modified", lit "newest_modified"]

/-- The folders that a list entry opens. -/
def openFolders (listing : ListEntry) : List Str :=
  match listing.virtualDirectories with
  | some directories => directories.map fun directory => folderPrefix directory.name
  | none => [folderPrefix listing.effectivePath]

/-- The objects of a bucket that lie in one of the folders a list entry opens. -/
def visibleObjects (store : Store) (bucket : Str) (listing : ListEntry) : List S3Object :=
  (wantedObjects store bucket []).filter fun object =>
    decide (∃ folder ∈ openFolders listing, folder <+: object.key)

/-- A well-formed answer about these objects. -/
structure WellFormed (answer : Dict) (visible : List S3Object) : Prop where
  fields : ∀ name, name ∈ answer.map Prod.fst ↔ name ∈ summaryFields
  totals : dictGet answer "complete" = .bool true →
    dictGet answer "total_objects" = .int visible.length ∧
      dictGet answer "total_bytes" = .int (scannedBytes visible)

theorem visibleObjects_folder {store : Store} {bucket : Str} {listing : ListEntry}
    (real : listing.virtualDirectories = none) :
    visibleObjects store bucket listing =
      wantedObjects store bucket (folderPrefix listing.effectivePath) := by
  rw [@wanted_narrow store bucket _ [] List.nil_prefix]
  unfold visibleObjects openFolders
  rw [real]
  simp

variable {unicode : Unicode} {formats : SummaryFormats} {bucket : Str} {scan : BucketScan}

theorem scanResponse_fields :
    (scanResponse unicode formats bucket scan).map Prod.fst = summaryFields := rfl

theorem scanResponse_items :
    dictItem (scanResponse unicode formats bucket scan) "scanned_objects" =
        .ok (.int scan.scanned.length) ∧
      dictItem (scanResponse unicode formats bucket scan) "complete" = .ok (.bool scan.complete) :=
  ⟨rfl, rfl⟩

end Schema

section Answers

variable {unicode : Unicode} {config : Dict} {formats : SummaryFormats} {conventions : Conventions}
  {store : Store} {pages : Nat} {role : Option Str} {bucket path : Str} {user : UserDict}
  {listing : ListEntry}

/-- The call passes the checks of its path, and there are steps for every page. -/
structure Permitted (unicode : Unicode) (config : Dict) (store : Store) (pages : Nat)
    (role : Option Str) (bucket path : Str) (user : UserDict) (listing : ListEntry) : Prop where
  rawPath : checkRawPath config role bucket path user = .ok ()
  prepared : prepareListPath unicode config role bucket user (stripSlash path) = .ok listing
  enough : (store.objects bucket).entries.length ≤ pages + 1

/-- A limit of the summary that `int` can read. -/
def LimitReads (unicode : Unicode) (config : Dict) (key : String) (fallback : Int) : Prop :=
  ∃ limit, pyInt unicode (dictGetD config key (.int fallback)) = .ok limit

/-- Both limits of the summary can be read, and the path is no virtual root. -/
structure Summarizable (unicode : Unicode) (config : Dict) (listing : ListEntry) : Prop where
  maxKeys : LimitReads unicode config "mcp_summary_max_keys" 50000
  prefixScanPages : LimitReads unicode config "mcp_summary_prefix_scan_pages" 20
  real : listing.virtualDirectories = none

/-- The call is answered with the one schema, about what the role sees. -/
def AnsweredWell (unicode : Unicode) (config : Dict) (formats : SummaryFormats)
    (conventions : Conventions) (store : Store) (pages : Nat) (role : Option Str)
    (bucket path : Str) (user : UserDict) (listing : ListEntry) : Prop :=
  ∃ answer, Returns conventions
      (bucketSummaryAnswer unicode config formats pages role bucket path user) store answer store ∧
    WellFormed answer (visibleObjects store bucket listing)

theorem bucketSummary_eq {maxKeys prefixScanPages : Int}
    (first : pyInt unicode (dictGetD config "mcp_summary_max_keys" (.int 50000)) = .ok maxKeys)
    (second : pyInt unicode (dictGetD config "mcp_summary_prefix_scan_pages" (.int 20)) =
      .ok prefixScanPages)
    (rawPath : checkRawPath config role bucket path user = .ok ()) :
    bucketSummary unicode config pages role bucket path user =
      summarizeBucketForRole unicode config pages role bucket (folderPrefix (stripSlash path)) user
        maxKeys prefixScanPages := by
  unfold bucketSummary
  rw [first, ofResult_ok_bind, second, ofResult_ok_bind, rawPath, ofResult_ok_bind]

theorem summary_returns {maxKeys prefixScanPages : Int}
    (permitted : Permitted unicode config store pages role bucket path user listing)
    (real : listing.virtualDirectories = none) :
    ∃ scan, Returns conventions (summarizeBucketForRole unicode config pages role bucket
        (folderPrefix (stripSlash path)) user maxKeys prefixScanPages) store (.real scan) store ∧
      scan.searchPrefix = folderPrefix listing.effectivePath ∧
      CoverageSound store bucket scan := by
  have prepared : prepareListPath unicode config role bucket user
      (rstripSlash (folderPrefix (stripSlash path))) = .ok listing := by
    rw [rstripSlash_folderPrefix]
    exact permitted.prepared
  have short : (store.objectsUnder bucket (folderPrefix listing.effectivePath)).length ≤
      pages + 1 := by
    rw [Store.objectsUnder, List.length_map]
    exact (List.length_filter_le _ _).trans permitted.enough
  obtain ⟨children, listed⟩ := @scanChildren_returns conventions store
    (childrenParams bucket (folderPrefix listing.effectivePath))
    ((max 1 prefixScanPages).toNat - 1) _ [] (folder_ascending rfl) summary_page rfl
  obtain ⟨walk, walked⟩ := @scanPages_returns conventions store
    (firstPage bucket (folderPrefix listing.effectivePath) none (some s3PageSize))
    (max minSummaryMaxKeys maxKeys).toNat pages _ [] rfl summary_page (Nat.zero_le _)
    (walk_remaining store conventions bucket _) short
  have both : Returns conventions
      (scanBoth pages bucket (folderPrefix listing.effectivePath) maxKeys prefixScanPages) store
      (.real ⟨folderPrefix listing.effectivePath, children.1, children.2, walk.1, walk.2⟩) store :=
    returns_bind listed (returns_bind walked (returns_pure _))
  have ran : Returns conventions (summarizeBucketForRole unicode config pages role bucket
      (folderPrefix (stripSlash path)) user maxKeys prefixScanPages) store
      (.real ⟨folderPrefix listing.effectivePath, children.1, children.2, walk.1, walk.2⟩) store :=
    (summary_real pages prepared real (calm store)).trans (returns_retry both)
  obtain ⟨_, gathered⟩ := summary_gathered ran
  exact ⟨_, ran, rfl, gathered.sound⟩

theorem virtual_raises {maxKeys prefixScanPages : Int} {directories : List FileEntry}
    (permitted : Permitted unicode config store pages role bucket path user listing)
    (first : pyInt unicode (dictGetD config "mcp_summary_max_keys" (.int 50000)) = .ok maxKeys)
    (second : pyInt unicode (dictGetD config "mcp_summary_prefix_scan_pages" (.int 20)) =
      .ok prefixScanPages)
    (virtual : listing.virtualDirectories = some directories) :
    ∃ exc, (bucketSummaryAnswer unicode config formats pages role bucket path user).run conventions
        (calm store) = (.error exc, calm store) ∧
      exc.kind = .mcpError (lit "INTERNAL_ERROR") := by
  have prepared : prepareListPath unicode config role bucket user
      (rstripSlash (folderPrefix (stripSlash path))) = .ok listing := by
    rw [rstripSlash_folderPrefix]
    exact permitted.prepared
  have ran : Returns conventions (bucketSummary unicode config pages role bucket path user) store
      (.virtual directories) store := by
    rw [bucketSummary_eq first second permitted.rawPath]
    exact summary_virtual pages prepared virtual (calm store)
  refine ⟨ladder (.new .keyError (lit "scanned_objects")), ?_, rfl⟩
  unfold bucketSummaryAnswer
  rw [run_mapError, run_bind_returns (returns_mapError ran)]
  rfl

theorem limits_read {answer : Dict} {after : Store}
    (ran : Returns conventions
      (bucketSummaryAnswer unicode config formats pages role bucket path user) store answer after) :
    LimitReads unicode config "mcp_summary_max_keys" 50000 ∧
      LimitReads unicode config "mcp_summary_prefix_scan_pages" 20 := by
  unfold Returns bucketSummaryAnswer at ran
  rw [run_mapError, run_bind, run_mapError] at ran
  unfold bucketSummary at ran
  constructor
  · cases first : pyInt unicode (dictGetD config "mcp_summary_max_keys" (.int 50000)) with
    | ok limit => exact ⟨limit, first⟩
    | error exc =>
        rw [first] at ran
        cases (Prod.mk.inj ran).1
  · cases first : pyInt unicode (dictGetD config "mcp_summary_max_keys" (.int 50000)) with
    | error exc =>
        rw [first] at ran
        cases (Prod.mk.inj ran).1
    | ok maxKeys =>
        cases second : pyInt unicode
            (dictGetD config "mcp_summary_prefix_scan_pages" (.int 20)) with
        | ok limit => exact ⟨limit, second⟩
        | error exc =>
            rw [first, second] at ran
            cases (Prod.mk.inj ran).1

theorem answeredWell_of_summarizable
    (permitted : Permitted unicode config store pages role bucket path user listing)
    (summarizable : Summarizable unicode config listing) :
    AnsweredWell unicode config formats conventions store pages role bucket path user listing := by
  obtain ⟨maxKeys, first⟩ := summarizable.maxKeys
  obtain ⟨prefixScanPages, second⟩ := summarizable.prefixScanPages
  obtain ⟨scan, ran, folder, sound⟩ := @summary_returns unicode config conventions store pages role
    bucket path user listing maxKeys prefixScanPages permitted summarizable.real
  rw [← bucketSummary_eq first second permitted.rawPath] at ran
  have items := @scanResponse_items unicode formats bucket scan
  refine ⟨scanResponse unicode formats bucket scan, returns_mapError ?_, ?_, ?_⟩
  · refine returns_bind (returns_mapError ran) ?_
    change Returns conventions (S3Program.ofResult (dictItem (scanResponse unicode formats bucket
      scan) "scanned_objects") >>= _) store _ store
    rw [items.1, ofResult_ok_bind]
    change Returns conventions (S3Program.ofResult (dictItem (scanResponse unicode formats bucket
      scan) "complete") >>= _) store _ store
    rw [items.2, ofResult_ok_bind]
    exact returns_pure _
  · intro name
    rw [scanResponse_fields]
  · intro complete
    rw [visibleObjects_folder summarizable.real, ← folder]
    exact (sound.totalsShown formats).complete complete

/-- A permitted call is answered with the one schema exactly when its limits can be
read and its path is no virtual root. -/
theorem answeredWell_iff
    (permitted : Permitted unicode config store pages role bucket path user listing) :
    AnsweredWell unicode config formats conventions store pages role bucket path user listing ↔
      Summarizable unicode config listing := by
  constructor
  · intro answered
    obtain ⟨answer, ran, _⟩ := answered
    obtain ⟨maxKeys, prefixScanPages⟩ := limits_read ran
    refine ⟨maxKeys, prefixScanPages, ?_⟩
    cases virtual : listing.virtualDirectories with
    | none => rfl
    | some directories =>
        obtain ⟨_, first⟩ := maxKeys
        obtain ⟨_, second⟩ := prefixScanPages
        obtain ⟨exc, raised, _⟩ := @virtual_raises unicode config formats conventions store pages
          role bucket path user listing _ _ directories permitted first second virtual
        cases (Prod.mk.inj (raised.symm.trans ran)).1
  · exact answeredWell_of_summarizable permitted

/-- A role that may use two folders of its bucket. -/
def twoFolders : Dict :=
  [(lit "roles", .arr [.obj [(lit "name", .str (lit "team")),
    (lit "allowed_prefixes", .arr [.str (lit "a"), .str (lit "b")])]])]

def teamMember : UserDict := ⟨false, [lit "team"], none⟩

theorem permitted_folder : Permitted Unicode.ascii twoFolders summaryStore 1 (some (lit "team"))
    (lit "data") (lit "a/") teamMember ⟨lit "a", none, some (lit "team")⟩ where
  rawPath := rfl
  prepared := rfl
  enough := by decide

theorem answeredWell_folder :
    AnsweredWell Unicode.ascii twoFolders ⟨fun left right => decide (left < right)⟩
        Conventions.plain summaryStore 1 (some (lit "team")) (lit "data") (lit "a/") teamMember
        ⟨lit "a", none, some (lit "team")⟩ ↔
      Summarizable Unicode.ascii twoFolders ⟨lit "a", none, some (lit "team")⟩ :=
  answeredWell_iff permitted_folder

/-- At the root of its bucket such a role gets an internal error. -/
theorem virtual_root_unanswered :
    ¬ ∀ (unicode : Unicode) (config : Dict) (formats : SummaryFormats) (conventions : Conventions)
        (store : Store) (pages : Nat) (role : Option Str) (bucket path : Str) (user : UserDict)
        (listing : ListEntry),
        Permitted unicode config store pages role bucket path user listing →
        AnsweredWell unicode config formats conventions store pages role bucket path user
          listing := by
  intro always
  have permitted : Permitted Unicode.ascii twoFolders summaryStore 1 (some (lit "team"))
      (lit "data") [] teamMember
      ⟨[], some ((sortedNames Unicode.ascii [lit "a", lit "b"]).map .directory),
        some (lit "team")⟩ :=
    ⟨rfl, rfl, by decide⟩
  obtain ⟨answer, ran, _⟩ := always Unicode.ascii twoFolders
    ⟨fun left right => decide (left < right)⟩ Conventions.plain
    _ _ _ _ _ _ _ permitted
  obtain ⟨exc, raised, _⟩ := virtual_raises permitted rfl rfl rfl
  cases (Prod.mk.inj (raised.symm.trans ran)).1

end Answers

end S3Manager.Mcp
