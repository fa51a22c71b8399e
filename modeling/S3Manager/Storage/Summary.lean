import Mathlib.Algebra.GroupWithZero.Nat
import Mathlib.Data.List.Sort
import S3Manager.Python.Doubles
import S3Manager.Storage.Listings

/-! The answer of `summarize_bucket_for_role`: the statistics of a scan, the coverage
of each child prefix, and the two dictionaries that the branches build. -/

set_option autoImplicit false

namespace S3Manager.Storage

open Python Access Library

/-- How dates compare: `datetime`. -/
structure SummaryFormats where
  isBefore : Str → Str → Bool

section Statistics

/-- The objects and bytes counted under each name, in order of first sight. -/
abbrev Tally := List (Str × (Nat × Nat))

/-- `stats = d.setdefault(name, [0, 0]); stats[0] += 1; stats[1] += size` -/
def tally (stats : Tally) (name : Str) (size : Nat) : Tally :=
  let counts := (Assoc.get? stats name).getD (0, 0)
  Assoc.set stats name (counts.1 + 1, counts.2 + size)

/-- `prefix + remainder[: slash + 1]`, when the remainder has a slash. -/
def childPrefix (searchPrefix key : Str) : Option Str :=
  let remainder := key.drop searchPrefix.length
  if '/' ∈ remainder then
    some (searchPrefix ++ (remainder.takeWhile fun c => c != '/') ++ ['/'])
  else none

def prefixStats (searchPrefix : Str) (scanned : List S3Object) : Tally :=
  scanned.foldl (fun stats object =>
    match childPrefix searchPrefix object.key with
    | some child => tally stats child object.size
    | none => stats) []

def rootObjects (searchPrefix : Str) (scanned : List S3Object) : Nat :=
  scanned.countP fun object => (childPrefix searchPrefix object.key).isNone

/-- `text.rsplit(separator, 1)[-1]` -/
def lastPiece (separator : Char) (text : Str) : Str :=
  (text.reverse.takeWhile fun c => c != separator).reverse

def maxExtensionLength : Nat := 16

def extensionOf (unicode : Unicode) (searchPrefix key : Str) : Str :=
  let basename := lastPiece '/' (key.drop searchPrefix.length)
  if '.' ∈ basename ∧ ¬ endsWith basename ['.'] = true then
    (unicode.lower (lastPiece '.' basename)).take maxExtensionLength
  else lit "(none)"

def extensionStats (unicode : Unicode) (searchPrefix : Str) (scanned : List S3Object) : Tally :=
  scanned.foldl (fun stats object =>
    tally stats (extensionOf unicode searchPrefix object.key) object.size) []

def topLargest : Nat := 10

/-- The order of `(size, key, lm)` on the heap; no two entries share a key. -/
def heapBelow (left right : S3Object) : Prop :=
  left.size < right.size ∨ left.size = right.size ∧ left.key ≤ right.key

instance : DecidableRel heapBelow := fun left right => by
  unfold heapBelow
  infer_instance

/-- `heapq.heappush`, and `heapq.heappop` when the heap is too long. -/
def pushLargest (heap : List S3Object) (object : S3Object) : List S3Object :=
  let pushed := heap.orderedInsert heapBelow object
  if topLargest < pushed.length then pushed.tail else pushed

def largestObjects (scanned : List S3Object) : List S3Object :=
  (scanned.foldl pushLargest []).reverse

/-- The first of the dates that no other precedes. -/
def extremeDate (precedes : Str → Str → Bool) (scanned : List S3Object) : Option Str :=
  scanned.foldl (fun best object =>
    match best with
    | none => some object.lastModified
    | some date => if precedes object.lastModified date then some object.lastModified else best)
    none

end Statistics

section CoverageOf

inductive Coverage where
  | complete
  | partly
  | notScanned
  deriving DecidableEq

def Coverage.text : Coverage → Str
  | .complete => lit "complete"
  | .partly => lit "partial"
  | .notScanned => lit "not_scanned"

structure PrefixEntry where
  commonPrefix : Str
  objects : Option Nat
  bytes : Option Nat
  coverage : Coverage
  deriving DecidableEq

variable (scan : BucketScan)

def scanStoppedAt : Option Str :=
  if scan.complete then none else scan.scanned.getLast?.map S3Object.key

/-- `sorted(set(step1_prefixes) | set(prefix_stats.keys()))` -/
def allPrefixes : List Str :=
  (scan.childPrefixes ++ (prefixStats scan.searchPrefix scan.scanned).map Prod.fst).dedup.mergeSort
    fun left right => decide (left ≤ right)

def coverageOf (complete : Bool) (stoppedAt : Option Str) (commonPrefix : Str) : Coverage :=
  if complete then .complete
  else
    match stoppedAt with
    | none => .notScanned
    | some stop =>
        if startsWith stop commonPrefix then .partly
        else if commonPrefix < stop then .complete
        else .notScanned

def prefixEntry (commonPrefix : Str) : PrefixEntry :=
  let counts :=
    (Assoc.get? (prefixStats scan.searchPrefix scan.scanned) commonPrefix).getD (0, 0)
  match coverageOf scan.complete (scanStoppedAt scan) commonPrefix with
  | .notScanned => ⟨commonPrefix, none, none, .notScanned⟩
  | coverage => ⟨commonPrefix, some counts.1, some counts.2, coverage⟩

def prefixEntries : List PrefixEntry :=
  (allPrefixes scan).map (prefixEntry scan)

def topPrefixes : Nat := 20

def byObjects (left right : PrefixEntry) : Bool :=
  decide (right.objects.getD 0 < left.objects.getD 0) ||
    decide (left.objects.getD 0 = right.objects.getD 0) &&
      decide (left.commonPrefix ≤ right.commonPrefix)

/-- The scanned prefixes with the most objects, then those not scanned, in key order. -/
def selectedEntries : List PrefixEntry :=
  let entries := prefixEntries scan
  let top := ((entries.filter fun entry => entry.coverage ≠ .notScanned).mergeSort byObjects).take
    topPrefixes
  let others := (entries.filter fun entry => entry.coverage = .notScanned).take
    (topPrefixes - top.length)
  (top ++ others).mergeSort fun left right => decide (left.commonPrefix ≤ right.commonPrefix)

end CoverageOf

section Sizes

/-- The loop of `_human_bytes` over the units that are left; the value is `size / scale`. -/
def humanUnits (size : Nat) : Nat → List String → Str
  | scale, [] => oneDecimal size scale ++ lit " PB"
  | scale, unit :: rest =>
      if size < 1024 * scale then
        if unit = "B" then lit (toString (size / scale)) ++ lit " B"
        else oneDecimal size scale ++ ' ' :: lit unit
      else humanUnits size (1024 * scale) rest

def humanBytes (size : Nat) : Str :=
  humanUnits (double size) 1 ["B", "KB", "MB", "GB", "TB"]

/-- Below one KB the count is exact. -/
theorem humanBytes_small {size : Nat} (small : size < 1024) :
    humanBytes size = lit (toString size) ++ lit " B" := by
  rw [humanBytes, double_small (small.trans (by decide)), humanUnits, if_pos (by omega),
    if_pos rfl, Nat.div_one]

example : humanBytes 52428800 = lit "50.0 MB" := by decide +kernel

end Sizes

section Response

variable (unicode : Unicode) (formats : SummaryFormats)

def optionalNat (value : Option Nat) : Json :=
  (value.map fun count => Json.int count).getD .null

def optionalStr (value : Option Str) : Json :=
  (value.map Json.str).getD .null

def PrefixEntry.json (entry : PrefixEntry) : Json :=
  .obj [(lit "prefix", .str entry.commonPrefix), (lit "objects", optionalNat entry.objects),
    (lit "bytes", optionalNat entry.bytes), (lit "coverage", .str entry.coverage.text)]

def topExtensions : Nat := 20

/-- The extensions with the most objects first. -/
def extensionEntries (searchPrefix : Str) (scanned : List S3Object) : Tally :=
  (extensionStats unicode searchPrefix scanned).mergeSort fun left right =>
    decide (right.2.1 < left.2.1) || decide (left.2.1 = right.2.1) && decide (left.1 ≤ right.1)

def partialNote (scan : BucketScan) : Str :=
  lit "PARTIAL SCAN: only the first " ++ lit (toString scan.scanned.length) ++
    lit (" objects were visited, in S3's lexicographic key order, stopping at '") ++
    (scanStoppedAt scan).getD (lit "None") ++
    lit ("'. root_objects, extensions, largest_objects, oldest_modified and newest_modified " ++
      "reflect ONLY this scanned range and can UNDER-REPORT — e.g. a prefix that alone exceeds " ++
      "the scan cap can hide a loose object at the bucket root, or the single largest object in " ++
      "the bucket, if either sorts after scan_stopped_at. Narrow with `path` to a specific " ++
      "prefix, or raise mcp_summary_max_keys, for a trustworthy answer.")

def scannedBytes (scanned : List S3Object) : Nat :=
  (scanned.map S3Object.size).sum

/-- The dictionary of the scanning branch. -/
def scanResponse (bucket : Str) (scan : BucketScan) : Dict :=
  let bytes := scannedBytes scan.scanned
  let extensions := extensionEntries unicode scan.searchPrefix scan.scanned
  let whenComplete (value : Json) : Json := if scan.complete then value else .null
  [(lit "bucket", .str bucket),
    (lit "path", .str scan.searchPrefix),
    (lit "complete", .bool scan.complete),
    (lit "note", if scan.complete then .null else .str (partialNote scan)),
    (lit "scanned_objects", .int scan.scanned.length),
    (lit "scanned_bytes", .int bytes),
    (lit "scanned_bytes_human", .str (humanBytes bytes)),
    (lit "total_objects", whenComplete (.int scan.scanned.length)),
    (lit "total_bytes", whenComplete (.int bytes)),
    (lit "total_bytes_human", whenComplete (.str (humanBytes bytes))),
    (lit "scan_stopped_at", optionalStr (scanStoppedAt scan)),
    (lit "root_objects", .int (rootObjects scan.searchPrefix scan.scanned)),
    (lit "prefixes", .arr ((selectedEntries scan).map PrefixEntry.json)),
    (lit "prefix_count", .int (allPrefixes scan).length),
    (lit "prefix_list_complete", .bool scan.prefixListComplete),
    (lit "prefixes_truncated", .bool (decide (topPrefixes < (allPrefixes scan).length))),
    (lit "extensions", .arr ((extensions.take topExtensions).map fun entry =>
      .obj [(lit "ext", .str entry.1), (lit "objects", .int entry.2.1),
        (lit "bytes", .int entry.2.2)])),
    (lit "extension_count", .int extensions.length),
    (lit "extensions_truncated", .bool (decide (topExtensions < extensions.length))),
    (lit "largest_objects", .arr ((largestObjects scan.scanned).map fun object =>
      .obj [(lit "key", .str object.key), (lit "size", .int object.size),
        (lit "last_modified", .str object.lastModified)])),
    (lit "oldest_modified", optionalStr (extremeDate formats.isBefore scan.scanned)),
    (lit "newest_modified",
      optionalStr (extremeDate (fun date best => formats.isBefore best date) scan.scanned))]

def virtualNote : Str :=
  lit ("This role has multiple allowed_prefixes; pass path=<prefix>/ " ++
    "to summarize one of them.")

/-- The dictionary of the virtual branch. -/
def virtualResponse (directories : List FileEntry) : Dict :=
  [(lit "prefix", .str []),
    (lit "complete", .bool true),
    (lit "prefix_list_complete", .bool true),
    (lit "total_objects", .null),
    (lit "total_bytes", .null),
    (lit "root_objects", .int 0),
    (lit "prefixes", .arr (directories.map fun directory =>
      .obj [(lit "prefix", .str (directory.name ++ ['/'])), (lit "objects", .null),
        (lit "bytes", .null), (lit "coverage", .str (lit "not_scanned"))])),
    (lit "extensions", .arr []),
    (lit "extensions_truncated", .bool false),
    (lit "largest_objects", .arr []),
    (lit "oldest_modified", .null),
    (lit "newest_modified", .null),
    (lit "scan_stopped_at", .null),
    (lit "note", .str virtualNote)]

def BucketSummary.response (bucket : Str) : BucketSummary → Dict
  | .virtual directories => virtualResponse directories
  | .real scan => scanResponse unicode formats bucket scan

end Response

section Laws

variable {searchPrefix name other : Str} {scanned : List S3Object} {scan : BucketScan}

theorem get?_tally (stats : Tally) (size : Nat) :
    (Assoc.get? (tally stats name size) other).getD (0, 0) =
      if other = name then
        (((Assoc.get? stats name).getD (0, 0)).1 + 1, ((Assoc.get? stats name).getD (0, 0)).2 + size)
      else (Assoc.get? stats other).getD (0, 0) := by
  unfold tally
  by_cases same : other = name
  · subst same
    simp
  · simp [Assoc.get?_set_ne _ _ same, same]

/-- The objects that a scan has counted under a child prefix. -/
def childObjects (searchPrefix name : Str) (scanned : List S3Object) : List S3Object :=
  scanned.filter fun object => decide (childPrefix searchPrefix object.key = some name)

theorem prefixStats_counts (searchPrefix name : Str) (scanned : List S3Object) :
    (Assoc.get? (prefixStats searchPrefix scanned) name).getD (0, 0) =
      ((childObjects searchPrefix name scanned).length,
        scannedBytes (childObjects searchPrefix name scanned)) := by
  induction scanned using List.reverseRecOn with
  | nil => rfl
  | append_singleton front object ih =>
      have split : childObjects searchPrefix name (front ++ [object]) =
          childObjects searchPrefix name front ++ childObjects searchPrefix name [object] :=
        List.filter_append _ _
      unfold prefixStats at ih ⊢
      rw [List.foldl_append, split]
      simp only [List.foldl_cons, List.foldl_nil, List.length_append, scannedBytes,
        List.map_append, List.sum_append] at ih ⊢
      cases child : childPrefix searchPrefix object.key with
      | none => simp [ih, childObjects, child]
      | some found =>
          dsimp only
          rw [get?_tally]
          by_cases same : name = found
          · subst same
            simp [ih, childObjects, child]
          · simp [ih, childObjects, child, same, Ne.symm same]

end Laws

end S3Manager.Storage
