import S3Manager.Clients.Resolve
import S3Manager.Storage.Retry

/-! The listing helpers of `s3_client.py`. Each resolves its path with
`prepare_list_path` first and then pages through `ListObjectsV2`. A loop without
a page bound of its own takes the number of pages to follow as its first argument. -/

set_option autoImplicit false

namespace S3Manager.Storage

open Python Access Library

/-- `obj["Key"].endswith("/") and obj["Size"] == 0` -/
def isMarker (object : S3Object) : Bool :=
  endsWith object.key ['/'] && object.size == 0

def firstPage (bucket searchPrefix : Str) (delimiter : Option Str) (maxKeys : Option Nat) :
    ListParams where
  bucket := bucket
  searchPrefix := searchPrefix
  delimiter := delimiter
  maxKeys := maxKeys
  continuationToken := none

def ListParams.continueWith (params : ListParams) (token : Str) : ListParams :=
  { params with continuationToken := some token }

/-- `resp["NextContinuationToken"]` -/
def ListPage.requireToken (page : ListPage) : Result Str :=
  match page.nextContinuationToken with
  | some token => .ok token
  | none => raise .keyError (lit "'NextContinuationToken'")

/-- The token a botocore paginator goes on with. -/
def ListPage.morePages (page : ListPage) : Option Str :=
  if page.isTruncated then page.nextContinuationToken.filter fun token => !token.isEmpty
  else none

/-- `get_paginator("list_objects_v2").paginate(...)`, drained. -/
def paginate : Nat → ListParams → S3Program (List ListPage)
  | 0, params => do
      let page ← S3Program.call (.listObjectsV2 params)
      match page.morePages with
      | none => pure [page]
      | some _ => S3Program.raise .outOfPages []
  | pages + 1, params => do
      let page ← S3Program.call (.listObjectsV2 params)
      match page.morePages with
      | none => pure [page]
      | some token => do
          let rest ← paginate pages (params.continueWith token)
          pure (page :: rest)

section Entries

/-- `text[len(base):]` -/
def dropBase (base text : Str) : Str :=
  text.drop base.length

/-- The name under which a common prefix is shown. -/
def directoryName (base commonPrefix : Str) : Str :=
  rstripSlash (dropBase base commonPrefix)

/-- The directories of one page, each name once over all pages. -/
def newDirectories (base : Str) : List Str → List Str → List Str
  | _, [] => []
  | seen, commonPrefix :: rest =>
      let name := directoryName base commonPrefix
      if name.isEmpty || seen.contains name then newDirectories base seen rest
      else name :: newDirectories base (seen ++ [name]) rest

/-- The directories of one page, as the chunked listings collect them. -/
def pageDirectories (base : Str) (page : ListPage) : List FileEntry :=
  page.commonPrefixes.filterMap fun commonPrefix =>
    let name := directoryName base commonPrefix
    if name.isEmpty then none else some (.directory name)

/-- The files of one page that are shown below `base`. -/
def pageFiles (base : Str) (page : ListPage) : List FileEntry :=
  page.contents.filterMap fun object =>
    if isMarker object then none
    else
      let name := dropBase base object.key
      if name.isEmpty then none else some ⟨name, false, object.size, some object.lastModified⟩

/-- The order `(not is_directory, name.lower())`. -/
def entryLe (unicode : Unicode) (left right : FileEntry) : Bool :=
  (left.isDirectory && !right.isDirectory) ||
    (left.isDirectory == right.isDirectory &&
      decide (unicode.lower left.name ≤ unicode.lower right.name))

def sortEntries (unicode : Unicode) (entries : List FileEntry) : List FileEntry :=
  entries.mergeSort (entryLe unicode)

/-- The entries of all pages in the order they are met. -/
def pageEntries (base : Str) : List Str → List ListPage → List FileEntry
  | _, [] => []
  | seen, page :: rest =>
      let names := newDirectories base seen page.commonPrefixes
      names.map .directory ++ pageFiles base page ++ pageEntries base (seen ++ names) rest

/-- `path + "/" if path else ""` -/
def folderPrefix (path : Str) : Str :=
  if path.isEmpty then [] else path ++ ['/']

theorem rstripSlash_folderPrefix (path : Str) :
    rstripSlash (folderPrefix (stripSlash path)) = stripSlash path := by
  have trimmed : rstripSlash (stripSlash path) = stripSlash path :=
    rdropWhile_eq_self_of_last isSlash fun _ _ split => trimBy_last_not isSlash split
  unfold folderPrefix
  split
  · next empty => simp [List.isEmpty_iff.mp empty, rstripSlash]
  · exact (rdropWhile_concat_blank isSlash (stripSlash path) (by simp)).trans trimmed

end Entries

variable (unicode : Unicode) (config : Dict)

/-- What every listing helper starts with: virtual folders are its answer, and a
real path is fetched with retry. -/
def gatedListing {α : Type} (role : Option Str) (bucket path : Str) (user : UserDict)
    (onVirtual : ListEntry → List FileEntry → α) (fetch : ListEntry → S3Program α) :
    S3Program α := do
  let listing ← S3Program.ofResult (prepareListPath unicode config role bucket user path)
  match listing.virtualDirectories with
  | some directories => pure (onVirtual listing directories)
  | none => executeWithS3Retry unicode listing.validatedRole (fetch listing)

def listObjectsForRole (pages : Nat) (role : Option Str) (bucket path : Str) (user : UserDict) :
    S3Program (List FileEntry) :=
  gatedListing unicode config role bucket path user
    (fun _ directories => sortEntries unicode directories)
    fun listing => do
      let searchPrefix := folderPrefix listing.effectivePath
      let replies ← paginate pages (firstPage bucket searchPrefix (some ['/']) none)
      pure (sortEntries unicode (pageEntries searchPrefix [] replies))

section Recursive

structure KeyEntry where
  key : Str
  size : Nat
  lastModified : Option Str
  deriving DecidableEq

def S3Object.entry (object : S3Object) : KeyEntry where
  key := object.key
  size := object.size
  lastModified := some object.lastModified

structure RecursiveListing where
  files : List KeyEntry
  isTruncated : Bool
  nextContinuationToken : Option Str
  keyCount : Nat
  hint : Option Str
  deriving DecidableEq

/-- The inner `for` of `list_objects_recursive_for_role`: markers are skipped,
and the rest of the page is dropped once `maxKeys` files are there. -/
def collectFiles (maxKeys : Nat) : List KeyEntry → List S3Object → List KeyEntry
  | files, [] => files
  | files, object :: rest =>
      if isMarker object then collectFiles maxKeys files rest
      else
        let files := files ++ [object.entry]
        if maxKeys ≤ files.length then files else collectFiles maxKeys files rest

def recursiveListing (files : List KeyEntry) (isTruncated : Bool) (token : Option Str) :
    RecursiveListing where
  files := files
  isTruncated := isTruncated
  nextContinuationToken := token
  keyCount := files.length
  hint := none

/-- The decision after one page of the recursive listing: its answer, or the
request for the next page. -/
def afterRecursivePage (maxKeys : Nat) (params : ListParams) (files : List KeyEntry)
    (page : ListPage) : RecursiveListing ⊕ Result ListParams :=
  if maxKeys ≤ files.length then
    let isTruncated := page.isTruncated || decide (params.maxKeys.getD 0 ≤ page.contents.length)
    .inl (recursiveListing files isTruncated
      (if isTruncated then page.nextContinuationToken else none))
  else if page.isTruncated then .inr (page.requireToken.map params.continueWith)
  else .inl (recursiveListing files false none)

/-- The `while` loop of `list_objects_recursive_for_role`. -/
def recursivePages (maxKeys : Nat) :
    Nat → ListParams → List KeyEntry → S3Program RecursiveListing
  | 0, params, files => do
      let page ← S3Program.call (.listObjectsV2 params)
      match afterRecursivePage maxKeys params (collectFiles maxKeys files page.contents) page with
      | .inl listing => pure listing
      | .inr _ => S3Program.raise .outOfPages []
  | pages + 1, params, files => do
      let page ← S3Program.call (.listObjectsV2 params)
      let files := collectFiles maxKeys files page.contents
      match afterRecursivePage maxKeys params files page with
      | .inl listing => pure listing
      | .inr next => do
          let params ← S3Program.ofResult next
          recursivePages maxKeys pages params files

def virtualHint : Str :=
  lit ("This role has multiple allowed_prefixes; pass path=<prefix>/ " ++
    "to list one of them recursively.")

/-- `max(1, min(max_keys, max(1, max_page_size)))` -/
def effectiveMaxKeys (maxKeys maxPageSize : Int) : Nat :=
  (max 1 (min maxKeys (max 1 maxPageSize))).toNat

/-- The first request of `list_objects_recursive_for_role`. -/
def recursiveParams (bucket path : Str) (maxKeys : Nat) (continuationToken : Option Str) :
    ListParams where
  bucket := bucket
  searchPrefix := folderPrefix path
  delimiter := none
  maxKeys := some (min maxKeys 1000)
  continuationToken := continuationToken.filter fun token => !token.isEmpty

/-- The answer of the recursive listing for a role with several prefixes. -/
def virtualListing (directories : List FileEntry) : RecursiveListing :=
  let files := directories.map fun directory => ⟨directory.name ++ ['/'], 0, none⟩
  { recursiveListing files false none with hint := some virtualHint }

def listObjectsRecursiveForRole (pages : Nat) (role : Option Str) (bucket searchPrefix : Str)
    (user : UserDict) (maxKeys : Int) (continuationToken : Option Str) (maxPageSize : Int) :
    S3Program RecursiveListing :=
  gatedListing unicode config role bucket (rstripSlash searchPrefix) user
    (fun _ directories => virtualListing directories)
    fun listing =>
      let maxKeys := effectiveMaxKeys maxKeys maxPageSize
      recursivePages maxKeys pages
        (recursiveParams bucket listing.effectivePath maxKeys continuationToken) []

end Recursive

section Summary

/-- What the two walks of `summarize_bucket_for_role` gather. The statistics of
its answer are folds over `scanned`. -/
structure BucketScan where
  searchPrefix : Str
  childPrefixes : List Str
  prefixListComplete : Bool
  scanned : List S3Object
  complete : Bool

inductive BucketSummary where
  | virtual (directories : List FileEntry)
  | real (scan : BucketScan)

/-- Step 1, with the number of pages that are left after this one. -/
def scanChildren : Nat → ListParams → List Str → S3Program (List Str × Bool)
  | 0, params, found => do
      let page ← S3Program.call (.listObjectsV2 params)
      pure (found ++ page.commonPrefixes, !page.isTruncated)
  | budget + 1, params, found => do
      let page ← S3Program.call (.listObjectsV2 params)
      let found := found ++ page.commonPrefixes
      if page.isTruncated then do
        let token ← S3Program.ofResult page.requireToken
        scanChildren budget (params.continueWith token) found
      else pure (found, true)

/-- One page of step 2: the scanned objects, and whether the cap stopped the walk. -/
def scanPage (maxKeys : Nat) : List S3Object → List S3Object → List S3Object × Bool
  | scanned, [] => (scanned, false)
  | scanned, object :: rest =>
      if isMarker object then scanPage maxKeys scanned rest
      else if maxKeys ≤ scanned.length then (scanned, true)
      else scanPage maxKeys (scanned ++ [object]) rest

/-- The decision after one page of step 2. -/
def afterScanPage (maxKeys : Nat) (params : ListParams) (scan : List S3Object × Bool)
    (page : ListPage) : (List S3Object × Bool) ⊕ Result ListParams :=
  if scan.2 then .inl (scan.1, false)
  else if page.isTruncated then
    if maxKeys ≤ scan.1.length then .inl (scan.1, false)
    else .inr (page.requireToken.map params.continueWith)
  else .inl (scan.1, true)

/-- Step 2 of `summarize_bucket_for_role`. -/
def scanPages (maxKeys : Nat) :
    Nat → ListParams → List S3Object → S3Program (List S3Object × Bool)
  | 0, params, scanned => do
      let page ← S3Program.call (.listObjectsV2 params)
      match afterScanPage maxKeys params (scanPage maxKeys scanned page.contents) page with
      | .inl done => pure done
      | .inr _ => S3Program.raise .outOfPages []
  | pages + 1, params, scanned => do
      let page ← S3Program.call (.listObjectsV2 params)
      let scan := scanPage maxKeys scanned page.contents
      match afterScanPage maxKeys params scan page with
      | .inl done => pure done
      | .inr next => do
          let params ← S3Program.ofResult next
          scanPages maxKeys pages params scan.1

/-- `_S3_PAGE_SIZE` and `_MIN_SUMMARY_MAX_KEYS` -/
def s3PageSize : Nat := 1000

def minSummaryMaxKeys : Int := 1000

def summarizeBucketForRole (pages : Nat) (role : Option Str) (bucket searchPrefix : Str)
    (user : UserDict) (maxKeys prefixScanPages : Int) : S3Program BucketSummary :=
  gatedListing unicode config role bucket (rstripSlash searchPrefix) user
    (fun _ directories => .virtual directories)
    fun listing => do
      let searchPrefix := folderPrefix listing.effectivePath
      let maxKeys := (max minSummaryMaxKeys maxKeys).toNat
      let budget := (max 1 prefixScanPages).toNat
      let children ← scanChildren (budget - 1)
        (firstPage bucket searchPrefix (some ['/']) (some s3PageSize)) []
      let walk ← scanPages maxKeys pages
        (firstPage bucket searchPrefix none (some s3PageSize)) []
      pure (.real ⟨searchPrefix, children.1, children.2, walk.1, walk.2⟩)

end Summary

section Paginated

structure PaginatedListing where
  directories : List FileEntry
  files : List FileEntry
  nextToken : Option Str
  hasMore : Bool
  path : Str

/-- `sort(key=lambda entry: entry["name"].lower())` -/
def sortByName (entries : List FileEntry) : List FileEntry :=
  entries.mergeSort fun left right => decide (unicode.lower left.name ≤ unicode.lower right.name)

/-- The request for the directories, made on the first page only. -/
def firstPageDirectories (bucket searchPrefix : Str) (continuationToken : Option Str) :
    S3Program (List FileEntry) :=
  match continuationToken with
  | none => do
      let page ← S3Program.call
        (.listObjectsV2 (firstPage bucket searchPrefix (some ['/']) (some 1000)))
      pure (sortByName unicode (pageDirectories searchPrefix page))
  | some _ => pure []

def listObjectsPaginatedForRole (role : Option Str) (bucket path : Str) (user : UserDict)
    (maxKeys : Int) (continuationToken : Option Str) : S3Program PaginatedListing :=
  gatedListing unicode config role bucket path user
    (fun listing directories => ⟨directories, [], none, false, listing.effectivePath⟩)
    fun listing => do
      let maxKeys := (max 1 (min maxKeys 1000)).toNat
      let searchPrefix := folderPrefix listing.effectivePath
      let directories ← firstPageDirectories unicode bucket searchPrefix continuationToken
      let page ← S3Program.call (.listObjectsV2
        { firstPage bucket searchPrefix (some ['/']) (some maxKeys) with
          continuationToken := continuationToken.filter fun token => !token.isEmpty })
      let nextToken := if page.isTruncated then page.nextContinuationToken else none
      pure ⟨directories, sortByName unicode (pageFiles searchPrefix page), nextToken,
        page.isTruncated, listing.effectivePath⟩

end Paginated

section ClientLoad

structure ClientLoad where
  directories : List FileEntry
  files : List FileEntry
  truncated : Bool
  nextToken : Option Str
  path : Str

/-- The loop of `list_objects_client_load_for_role`; its first argument counts
the pages that are still allowed. -/
def clientLoadPages (bucket base s3Prefix : Str) (maxClientLoad : Nat) :
    Nat → Option Str → List FileEntry → List FileEntry →
      S3Program (List FileEntry × List FileEntry × Option (Option Str))
  | 0, _, directories, files => pure (directories, files, none)
  | pages + 1, token, directories, files => do
      let remaining := maxClientLoad - (directories.length + files.length)
      let page ← S3Program.call (.listObjectsV2
        { firstPage bucket s3Prefix (some ['/']) (some (min 1000 remaining)) with
          continuationToken := token.filter fun token => !token.isEmpty })
      let directories := directories ++ pageDirectories base page
      let files := files ++ pageFiles base page
      if page.isTruncated then
        if maxClientLoad ≤ directories.length + files.length ∨ pages = 0 then
          pure (directories, files, some page.nextContinuationToken)
        else
          clientLoadPages bucket base s3Prefix maxClientLoad pages page.nextContinuationToken
            directories files
      else pure (directories, files, none)

def listObjectsClientLoadForRole (role : Option Str) (bucket path : Str) (user : UserDict)
    (maxClientLoad : Int) (continuationToken : Option Str) (namePrefix : Str) :
    S3Program ClientLoad :=
  gatedListing unicode config role bucket path user
    (fun listing directories => ⟨directories, [], false, none, listing.effectivePath⟩)
    fun listing => do
      let maxClientLoad := (max 1 (min maxClientLoad 200000)).toNat
      let base := folderPrefix listing.effectivePath
      let chunk ← clientLoadPages bucket base (base ++ namePrefix) maxClientLoad
        (maxClientLoad / 1000 + 8) continuationToken [] []
      pure ⟨sortByName unicode chunk.1, sortByName unicode chunk.2.1, chunk.2.2.isSome,
        chunk.2.2.getD none, listing.effectivePath⟩

end ClientLoad

section Buckets

/-- `list_buckets_for_role`: the buckets of the entry it looks at, or those S3 lists. -/
def listBucketsForRole (role : Option Str) (user : UserDict) : S3Program (List Json) := do
  let validated ← S3Program.ofResult (validateRoleAccess role user)
  let entry ← S3Program.ofResult (Clients.shownRole config validated)
  let allowed ← S3Program.ofResult (match entry with
    | some roleConfig => roleAllowedBuckets roleConfig config
    | none => .ok none)
  match allowed with
  | some buckets => pure buckets
  | none =>
      executeWithS3Retry unicode validated do
        let names ← S3Program.call .listBuckets
        pure (List.map Json.str names)

end Buckets

end S3Manager.Storage
