import S3Manager.Library.Percent
import S3Manager.Ui.FolderWalk

/-! Folder paths in the address bar: where the browser page and its breadcrumbs write a
path into a URL, and how the page reads it back. -/

set_option autoImplicit false

namespace S3Manager.Ui

open Python Library

section Paths

/-- What `encodeURIComponent` leaves as it is. -/
def isUnreserved (c : Char) : Bool :=
  c.isAlphanum || "-_.!~*'()".toList.contains c

def encodeURIComponent (text : Str) : Str :=
  Percent.escape isUnreserved text

def encodePath (path : Str) : Str :=
  if path.isEmpty then [] else joinNames ((path.splitOn '/').map encodeURIComponent)

/-- Nothing stands for the `URIError` of a segment. -/
def decodePath (path : Str) : Option Str :=
  if path.isEmpty then some [] else ((path.splitOn '/').mapM Percent.decode).map joinNames

structure Crumb where
  name : Str
  path : Str

def splitCrumbs (path : Str) : List Crumb :=
  if path.isEmpty then []
  else
    let segments := (path.splitOn '/').filter fun segment => !segment.isEmpty
    segments.mapIdx fun i name => ⟨name, joinNames (segments.take (i + 1))⟩

def prefixToPath (raw : Str) : Str := stripSlash raw

def roleEntryPath : Option (List Str) → Str
  | some [only] => prefixToPath only
  | _ => []

def clampPathToEntry (path entryPath : Str) : Str :=
  if entryPath.isEmpty then path
  else if path.isEmpty then entryPath
  else if path == entryPath || startsWith path (entryPath ++ ['/']) then path
  else entryPath

end Paths

section Urls

/-- A URL of the file browser, `/r/…/b/…` or `/r/…/b/…/p/…`, by its parts. -/
structure FolderUrl where
  role : Str
  bucket : Str
  splat : Option Str

/-- The router as far as the page sees it in `params["*"]`, which is decoded once. -/
structure Router where
  splat : FolderUrl → Option Str
  absent : ∀ url : FolderUrl, url.splat = none → splat url = none
  decoded : ∀ (url : FolderUrl) (encoded text : Str), url.splat = some encoded →
    Percent.decode encoded = some text → splat url = some text

/-- The `pathFromUrl` of the page; nothing stands for a page that throws. -/
def Router.pathFromUrl (router : Router) (url : FolderUrl) : Option Str :=
  decodePath ((router.splat url).getD [])

variable (roleId bucket : Str)

/-- The URL that opening a folder navigates to. -/
def navigateToFolder (pathFromUrl folderName : Str) : FolderUrl :=
  let next := joinPath [pathFromUrl, folderName]
  let encoded := joinNames ((next.splitOn '/').map encodeURIComponent)
  ⟨encodeURIComponent roleId, encodeURIComponent bucket, some encoded⟩

section Breadcrumbs

variable (allowedPrefixes : Option (List Str))

/-- The crumbs shown behind the first one. -/
def shownCrumbs (path : Str) : List Crumb :=
  let entryPath := roleEntryPath allowedPrefixes
  let crumbs := (splitCrumbs path).filter fun c =>
    entryPath.isEmpty || c.path == entryPath || startsWith c.path (entryPath ++ ['/'])
  crumbs.filter fun c => !(!entryPath.isEmpty && c.path == entryPath)

def crumbUrl (crumb : Crumb) : FolderUrl :=
  ⟨encodeURIComponent roleId, encodeURIComponent bucket,
    some (joinNames ((crumb.path.splitOn '/').map encodeURIComponent))⟩

def homePath : Str := clampPathToEntry [] (roleEntryPath allowedPrefixes)

def homeUrl : FolderUrl :=
  let homePath := homePath allowedPrefixes
  ⟨encodeURIComponent roleId, encodeURIComponent bucket,
    if homePath.isEmpty then none else some (encodePath homePath)⟩

end Breadcrumbs

end Urls

section Encoding

variable {names : List Str}

theorem joinNames_cons (name : Str) (some : names ≠ []) :
    joinNames (name :: names) = name ++ '/' :: joinNames names :=
  joinOn_cons name some

theorem bytes_encodeURIComponent (text rest : Str) :
    Percent.bytes (encodeURIComponent text ++ rest) =
      (Percent.bytes rest).map (utf8Encode text ++ ·) :=
  Percent.bytes_escape_append (by decide) text rest

/-- The slashes between encoded names are read as slashes. -/
theorem bytes_encoded (names : List Str) :
    Percent.bytes (joinNames (names.map encodeURIComponent)) = some (utf8Encode (joinNames names)) := by
  induction names with
  | nil => rfl
  | cons name rest ih =>
      cases rest with
      | nil =>
          have alone := bytes_encodeURIComponent name []
          simpa [Percent.bytes] using alone
      | cons second more =>
          rw [List.map_cons, joinNames_cons _ (by simp), bytes_encodeURIComponent,
            Percent.bytes_cons (by decide), ih, joinNames_cons name (by simp), utf8Encode_append,
            utf8Encode_cons]
          rfl

theorem decode_encoded (path : Str) :
    Percent.decode (joinNames ((path.splitOn '/').map encodeURIComponent)) = some path := by
  rw [Percent.decode, bytes_encoded, joinNames, joinOn_splitOn]
  exact utf8Decode_encode path

theorem encodePath_eq (path : Str) :
    encodePath path = joinNames ((path.splitOn '/').map encodeURIComponent) := by
  cases path with
  | nil => rfl
  | cons c rest => rfl

end Encoding

section Decoding

variable {names decoded : List Str} {name path : Str}

theorem utf8_join (name : Str) (some : names ≠ []) :
    (utf8Encode (joinNames (name :: names))).length =
      (utf8Encode name).length + 1 + (utf8Encode (joinNames names)).length := by
  have slash : (String.utf8EncodeChar '/').length = 1 := by decide
  rw [joinNames_cons name some, utf8Encode_append, utf8Encode_cons, List.length_append,
    List.length_append, slash]
  omega

/-- Decoding the names of a path makes it shorter when one of them holds a `%`. -/
theorem decoded_shorter (found : names.mapM Percent.decode = some decoded) :
    (utf8Encode (joinNames decoded)).length ≤ (utf8Encode (joinNames names)).length ∧
      ((∃ name ∈ names, '%' ∈ name) →
        (utf8Encode (joinNames decoded)).length < (utf8Encode (joinNames names)).length) := by
  induction names generalizing decoded with
  | nil =>
      obtain rfl : [] = decoded := by simpa using found
      simp
  | cons name rest ih =>
      simp only [List.mapM_cons, Option.bind_eq_bind, Option.bind_eq_some_iff, Option.pure_def,
        Option.some.injEq] at found
      obtain ⟨first, decodes, others, later, rfl⟩ := found
      obtain ⟨shorter, strict⟩ := Percent.decode_shorter decodes
      obtain ⟨restShorter, restStrict⟩ := ih later
      cases rest with
      | nil =>
          obtain rfl : [] = others := by simpa using later
          simpa using And.intro shorter strict
      | cons second more =>
          have some_ : others ≠ [] := by
            rintro rfl
            simp [List.mapM_cons, Option.bind_eq_some_iff] at later
          rw [utf8_join name (by simp), utf8_join first some_]
          refine ⟨by omega, ?_⟩
          rintro ⟨found, member, percent⟩
          obtain rfl | inRest := List.mem_cons.mp member
          · have less := strict percent
            omega
          · have less := restStrict ⟨found, inRest, percent⟩
            omega

theorem decode_names (plain : ∀ name ∈ names, '%' ∉ name) :
    names.mapM Percent.decode = some names := by
  induction names with
  | nil => rfl
  | cons name rest ih =>
      rw [List.mapM_cons, Percent.decode_plain (plain name (by simp)),
        ih fun other member => plain other (by simp [member])]
      rfl

theorem percent_names : '%' ∈ path ↔ ∃ name ∈ path.splitOn '/', '%' ∈ name := by
  constructor
  · intro percent
    rw [← @joinOn_splitOn _ '/' _ path] at percent
    obtain slash | found := mem_joinOn percent
    · cases slash
    · exact found
  · rintro ⟨name, member, percent⟩
    have inside : name <:+: path := by
      have joined := @infix_joinOn _ '/' _ _ member
      rwa [joinOn_splitOn] at joined
    exact inside.subset percent

theorem bytes_decoded (found : names.mapM Percent.decode = some decoded) :
    Percent.bytes (joinNames names) = some (utf8Encode (joinNames decoded)) := by
  induction names generalizing decoded with
  | nil =>
      obtain rfl : [] = decoded := by simpa using found
      rfl
  | cons name rest ih =>
      simp only [List.mapM_cons, Option.bind_eq_bind, Option.bind_eq_some_iff, Option.pure_def,
        Option.some.injEq] at found
      obtain ⟨first, decodes, others, later, rfl⟩ := found
      obtain ⟨read, parsed, text⟩ := Option.bind_eq_some_iff.mp decodes
      obtain rfl := utf8Decode_eq_some_iff.mp text
      cases rest with
      | nil =>
          obtain rfl : [] = others := by simpa using later
          simpa using parsed
      | cons second more =>
          have some_ : others ≠ [] := by
            rintro rfl
            simp [List.mapM_cons, Option.bind_eq_some_iff] at later
          rw [joinNames_cons name (by simp), joinNames_cons first some_,
            Percent.bytes_append parsed, Percent.bytes_cons (by decide), ih later,
            utf8Encode_append, utf8Encode_cons]
          rfl

/-- Blanks before a path are decoded to themselves, and the path behind them gets shorter
with a `%` in it. -/
theorem decodePath_behind {leading : Str} (blank : '%' ∉ leading) {text : Str}
    (found : decodePath (leading ++ path) = some text) :
    ∃ rest, text = leading ++ rest ∧
      ('%' ∈ path → (utf8Encode rest).length < (utf8Encode path).length) := by
  have parsed : Percent.bytes (leading ++ path) = some (utf8Encode text) := by
    unfold decodePath at found
    split at found
    · next empty =>
        rw [List.isEmpty_iff.mp empty]
        obtain rfl := Option.some.inj found
        rfl
    · obtain ⟨decoded, decodes, rfl⟩ := Option.map_eq_some_iff.mp found
      have whole := bytes_decoded decodes
      rwa [joinNames, joinOn_splitOn] at whole
  rw [Percent.bytes_append (Percent.bytes_plain blank)] at parsed
  obtain ⟨read, behind, split⟩ := Option.map_eq_some_iff.mp parsed
  obtain ⟨rest, rfl⟩ := prefix_of_utf8Encode (⟨read, split⟩ : utf8Encode leading <+: utf8Encode text)
  rw [utf8Encode_append] at split
  obtain rfl := List.append_cancel_left split
  exact ⟨rest, rfl, (Percent.bytes_shorter behind).2⟩

/-- A path is its own decoding only if there is nothing to decode. -/
theorem decodePath_self_iff : decodePath path = some path ↔ '%' ∉ path := by
  by_cases empty : path = []
  · subst empty
    simp [decodePath]
  have shown : path.isEmpty = false := by simpa using empty
  simp only [decodePath, shown, Bool.false_eq_true, if_false]
  constructor
  · intro same percent
    obtain ⟨decoded, found, joined⟩ := Option.map_eq_some_iff.mp same
    have less := (decoded_shorter found).2 (percent_names.mp percent)
    rw [joined, joinNames, joinOn_splitOn] at less
    exact Nat.lt_irrefl _ less
  · intro plain
    rw [decode_names fun name member percent =>
      plain (percent_names.mpr ⟨name, member, percent⟩)]
    exact congrArg some (joinOn_splitOn path)

end Decoding

section RoundTrip

variable {router : Router} {role bucket path : Str}

theorem reads_encoded :
    router.pathFromUrl ⟨role, bucket, some (joinNames ((path.splitOn '/').map encodeURIComponent))⟩ =
      decodePath path := by
  rw [Router.pathFromUrl, router.decoded _ _ path rfl (decode_encoded path)]
  rfl

theorem percent_stripSlash {text : Str} : '%' ∈ stripSlash text ↔ '%' ∈ text := by
  obtain ⟨leading, trailing, shape, leadingSlash, trailingSlash⟩ := trimBy_split isSlash text
  constructor
  · intro member
    rw [shape]
    exact List.mem_append_left _ (List.mem_append_right _ member)
  · intro member
    rw [shape] at member
    obtain front | middle | back : '%' ∈ leading ∨ '%' ∈ trimBy isSlash text ∨ '%' ∈ trailing := by
      simpa using member
    · exact absurd (leadingSlash _ front) (by decide)
    · exact middle
    · exact absurd (trailingSlash _ back) (by decide)

theorem percent_joinPath {folder name : Str} :
    '%' ∈ joinPath [folder, name] ↔ '%' ∈ folder ∨ '%' ∈ name := by
  rw [← @percent_stripSlash folder, ← @percent_stripSlash name, joinPath_two]
  split
  · next empty => simp [empty]
  · split
    · next empty => simp [empty]
    · simp

/-- Some breadcrumb of a path holds a `%` when the path does. -/
theorem percent_crumbs : (∃ crumb ∈ splitCrumbs path, '%' ∈ crumb.path) ↔ '%' ∈ path := by
  by_cases empty : path = []
  · subst empty
    simp [splitCrumbs]
  have shown : path.isEmpty = false := by simpa using empty
  simp only [splitCrumbs, shown, Bool.false_eq_true, if_false, List.mem_mapIdx]
  constructor
  · rintro ⟨crumb, ⟨i, inside, rfl⟩, percent⟩
    obtain slash | ⟨name, taken, found⟩ := mem_joinOn percent
    · cases slash
    · have kept := List.mem_filter.mp (List.mem_of_mem_take taken)
      exact percent_names.mpr ⟨name, kept.1, found⟩
  · intro percent
    obtain ⟨name, member, found⟩ := percent_names.mp percent
    have live : name.isEmpty = false := by
      cases name with
      | nil => cases found
      | cons c rest => rfl
    have kept : name ∈ (path.splitOn '/').filter fun segment => !segment.isEmpty :=
      List.mem_filter.mpr ⟨member, by simp [live]⟩
    obtain ⟨i, inside, rfl⟩ := List.getElem_of_mem kept
    refine ⟨_, ⟨i, inside, rfl⟩, ?_⟩
    refine (infix_joinOn (List.mem_take_iff_getElem.mpr ⟨i, ?_, rfl⟩)).subset found
    exact lt_min (Nat.lt_succ_self i) inside

/-- What is read back from a URL of the file browser is the path it was made for exactly
when there is no `%` in it: the page decodes what the router has decoded already. -/
theorem folder_url_iff (router : Router) (roleId bucket : Str) :
    (∀ pathFromUrl folderName,
      router.pathFromUrl (navigateToFolder roleId bucket pathFromUrl folderName) =
          some (joinPath [pathFromUrl, folderName]) ↔
        '%' ∉ pathFromUrl ∧ '%' ∉ folderName) ∧
      (∀ path, (∀ crumb ∈ splitCrumbs path,
        router.pathFromUrl (crumbUrl roleId bucket crumb) = some crumb.path) ↔ '%' ∉ path) ∧
      (∀ allowedPrefixes path, ∀ crumb ∈ shownCrumbs allowedPrefixes path,
        crumb ∈ splitCrumbs path ∧
          (router.pathFromUrl (crumbUrl roleId bucket crumb) = some crumb.path ↔
            '%' ∉ crumb.path)) ∧
      ∀ allowedPrefixes, router.pathFromUrl (homeUrl roleId bucket allowedPrefixes) =
        some (homePath allowedPrefixes) ↔ '%' ∉ homePath allowedPrefixes := by
  have reads : ∀ path, router.pathFromUrl ⟨encodeURIComponent roleId, encodeURIComponent bucket,
      some (joinNames ((path.splitOn '/').map encodeURIComponent))⟩ = some path ↔ '%' ∉ path :=
    fun path => by rw [reads_encoded, decodePath_self_iff]
  refine ⟨fun pathFromUrl folderName => ?_, fun path => ?_, fun allowedPrefixes path crumb shown =>
    ⟨?_, reads crumb.path⟩, fun allowedPrefixes => ?_⟩
  · refine (reads _).trans ?_
    rw [percent_joinPath, not_or]
  · rw [← percent_crumbs]
    simp only [not_exists, not_and]
    exact forall₂_congr fun crumb _ => reads crumb.path
  · exact List.mem_of_mem_filter (List.mem_of_mem_filter shown)
  · by_cases root : homePath allowedPrefixes = []
    · have url : homeUrl roleId bucket allowedPrefixes =
          ⟨encodeURIComponent roleId, encodeURIComponent bucket, none⟩ := by
        simp [homeUrl, root]
      rw [url, Router.pathFromUrl, router.absent _ rfl, root]
      simp [decodePath]
    · have url : homeUrl roleId bucket allowedPrefixes =
          ⟨encodeURIComponent roleId, encodeURIComponent bucket,
            some (joinNames (((homePath allowedPrefixes).splitOn '/').map encodeURIComponent))⟩ := by
        simp [homeUrl, root, encodePath_eq]
      rw [url]
      exact reads _

/-- A router that decodes the splat once, and keeps one that cannot be decoded. -/
def onceRouter : Router where
  splat := fun url => url.splat.map fun encoded => (Percent.decode encoded).getD encoded
  absent := fun url none => by rw [none]; rfl
  decoded := fun url encoded text given decodes => by rw [given, Option.map_some, decodes]; rfl

/-- The folder `100%` makes the page throw, and `%41` opens `A`. -/
theorem percent_folders :
    onceRouter.pathFromUrl (navigateToFolder (lit "team") (lit "data") [] (lit "100%")) = none ∧
      onceRouter.pathFromUrl (navigateToFolder (lit "team") (lit "data") [] (lit "%41")) =
        some (lit "A") ∧
      (∃ crumb ∈ splitCrumbs (lit "%41/b"),
        onceRouter.pathFromUrl (crumbUrl (lit "team") (lit "data") crumb) = some (lit "A") ∧
          crumb.path = lit "%41") := by
  refine ⟨reads_encoded.trans (by decide +kernel), reads_encoded.trans (by decide +kernel),
    ⟨lit "%41", lit "%41"⟩, ?_, reads_encoded.trans (by decide +kernel), rfl⟩
  have crumbs : splitCrumbs (lit "%41/b") = [⟨lit "%41", lit "%41"⟩, ⟨lit "b", lit "%41/b"⟩] := by
    rfl
  simp [crumbs]

end RoundTrip

end S3Manager.Ui
