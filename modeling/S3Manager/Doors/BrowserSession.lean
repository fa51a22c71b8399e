import S3Manager.Doors.NamedKeys
import S3Manager.Library.Transition
import S3Manager.Ui.ShiftSelect

/-! The file browser while it is used: the folder in the address bar, the server
search, the selection, and the delete that waits for its confirmation. Names are kept
bare, and they are looked up and joined to the folder when the delete is confirmed. -/

set_option autoImplicit false

namespace S3Manager.Doors

open Python Access Storage Library Ui

section Selection

/-- A row of the list, with the folder it was listed for and the key or prefix behind it. -/
structure Row where
  bucket : Str
  root : Str
  entry : FileEntry
  key : Str
  stands : ShownFor (folderPrefix root) entry key

def addName (names : List Str) (name : Str) : List Str :=
  if names.contains name then names else names ++ [name]

/-- The items from one index to the other, both included. -/
def between {α : Type} (items : List α) (first second : Nat) : List α :=
  (items.drop (min first second)).take (max first second - min first second + 1)

/-- The ends of a range click. -/
def clickedSpan (anchor : Option Str) (name : Str) (shiftKey : Bool) (orderedNames : List Str) :
    Option (Nat × Nat) :=
  (shiftRange name shiftKey orderedNames anchor).map Prod.snd

/-- `handleToggle` of `useShiftSelect` with the selected names in the order of the set: the
names selected after a click, and the anchor. -/
def handleToggle (selected : List Str) (anchor : Option Str) (name : Str) (shiftKey : Bool)
    (orderedNames : List Str) : List Str × Option Str :=
  match clickedSpan anchor name shiftKey orderedNames with
  | some (first, last) =>
      let names := between orderedNames first last
      if (anchor.map selected.contains).getD false then (names.foldl addName selected, anchor)
      else (selected.filter fun other => !names.contains other, anchor)
  | none =>
      if selected.contains name then (selected.filter fun other => other != name, some name)
      else (selected ++ [name], some name)

/-- `toggleAll` of `useShiftSelect` -/
def handleToggleAll (selected orderedNames : List Str) : List Str :=
  if !orderedNames.isEmpty && orderedNames.all selected.contains then []
  else orderedNames.foldl addName []

end Selection

section Places

structure Place where
  roleId : Str
  bucket : Str
  pathFromUrl : Str
  deriving DecidableEq

def Place.contextKey (place : Place) : Str :=
  place.roleId ++ '/' :: place.bucket ++ '/' :: place.pathFromUrl

/-- The links of `FileBreadcrumbs`: home, and the crumbs but the last one. -/
def breadcrumbLinks (allowedPrefixes : Option (List Str)) (path : Str) : List Str :=
  homePath allowedPrefixes :: (shownCrumbs allowedPrefixes path).dropLast.map Crumb.path

end Places

section Browsers

/-- The chunks of one level that have arrived: each entry is in the list of its kind,
and stands for a key or prefix of the folder that was listed. -/
structure Listing where
  pages : List ClientLoad
  directories : ∀ page ∈ pages, ∀ entry ∈ page.directories, entry.isDirectory = true
  files : ∀ page ∈ pages, ∀ entry ∈ page.files, entry.isDirectory = false
  shown : ∀ page ∈ pages, ∀ entry ∈ page.directories ++ page.files,
    ∃ key, ShownFor (folderPrefix page.path) entry key

def Listing.empty : Listing where
  pages := []
  directories := by simp
  files := by simp
  shown := by simp

/-- What the list route has answered for a screen. -/
def Listing.ofLoaded {unicode : Unicode} {config : Dict} {role : Option Str} {user : UserDict}
    {bucketName : Str} (screen : Screen)
    (loaded : Loaded unicode config role user bucketName screen) : Listing where
  pages := screen.pages
  directories := fun _ member => by
    obtain ⟨_, _, -, shown⟩ := loaded_shown loaded member
    exact shown.directories
  files := fun _ member => by
    obtain ⟨_, _, -, shown⟩ := loaded_shown loaded member
    exact shown.files
  shown := fun _ member entry inside => by
    obtain ⟨_, _, -, shown⟩ := loaded_shown loaded member
    obtain ⟨_, -, -, entries⟩ := shown.listed
    obtain ⟨key, stands, -⟩ := entries entry inside
    exact ⟨key, stands⟩

/-- The state of `FileBrowser`, with the answers of its two queries by what they asked for. -/
structure Browser where
  place : Place
  history : List Place
  serverSearchTerm : Option Str
  folder : Place → Listing
  search : Place → Str → Listing
  selected : List Str
  anchor : Option Str
  pendingDelete : List Str
  confirmOpen : Bool
  batches : Nat

inductive Action where
  | openFolder (name : Str)
  | breadcrumb (allowedPrefixes : Option (List Str)) (path : Str)
  /-- Any other link or address, and the Forward button. -/
  | visit (place : Place)
  | back
  /-- The effect that replaces an empty path by the one prefix of the role. -/
  | redirect
  | enterServerSearch (trimmed : Str)
  | exitServerSearch
  /-- A click on the checkbox of one of the rows in sight, in their order. -/
  | toggleSelect (rows : List Row) (row : Row) (shiftKey : Bool)
  | toggleSelectAll (rows : List Row)
  | clearSelection
  | requestDelete (row : Row)
  | requestSelected
  | cancelDelete
  /-- The number of requests that are sent before the batch is cancelled or given up. -/
  | confirmDelete (count : Nat)
  | batchDone
  | folderLoaded (place : Place) (listing : Listing)
  | searchLoaded (place : Place) (term : Str) (listing : Listing)

namespace Browser

variable (browser : Browser)

def active : Listing :=
  match browser.serverSearchTerm with
  | some term => browser.search browser.place term
  | none => browser.folder browser.place

def screen : Screen where
  pathFromUrl := browser.place.pathFromUrl
  pages := browser.active.pages

/-- A row that the list can show: sorting and filtering only choose among these. -/
def Shows (row : Row) : Prop :=
  row.bucket = browser.place.bucket ∧ ∃ page ∈ browser.active.pages,
    row.root = page.path ∧ row.entry ∈ page.directories ++ page.files

/-- The path sent for a name, in `confirmDelete`. -/
def deletePath (name : Str) : Str := browser.screen.deletePath name

/-- The names that a confirmation sends requests for. -/
def attempted : Action → List Str
  | .confirmDelete count => browser.pendingDelete.take count
  | _ => []

/-- What a page and its buttons allow: a modal keeps the user from the page behind it,
but not from the buttons of the browser. -/
def Offers : Action → Prop
  | .openFolder name => browser.confirmOpen = false ∧
      ∃ directory ∈ browser.screen.directories, directory.name = name
  | .breadcrumb allowedPrefixes path => browser.confirmOpen = false ∧
      path ∈ breadcrumbLinks allowedPrefixes browser.place.pathFromUrl
  | .visit _ | .clearSelection | .folderLoaded _ _ | .searchLoaded _ _ _ => True
  | .back => browser.history ≠ []
  | .redirect => browser.place.pathFromUrl = [] ∧ browser.serverSearchTerm = none ∧
      browser.screen.folder ≠ []
  | .enterServerSearch _ | .exitServerSearch => browser.confirmOpen = false
  | .toggleSelect rows row _ => browser.confirmOpen = false ∧ row ∈ rows ∧
      ∀ shown ∈ rows, browser.Shows shown
  | .toggleSelectAll rows => browser.confirmOpen = false ∧ ∀ shown ∈ rows, browser.Shows shown
  | .requestDelete row => browser.confirmOpen = false ∧ browser.Shows row
  | .requestSelected => browser.confirmOpen = false ∧ browser.selected ≠ []
  | .cancelDelete | .confirmDelete _ => browser.confirmOpen = true
  | .batchDone => 0 < browser.batches

/-- Another address, with the reset that comes with another context key. -/
def go (place : Place) : Browser :=
  { browser with
    place := place
    serverSearchTerm :=
      if place.contextKey = browser.place.contextKey then browser.serverSearchTerm else none }

def push : Browser :=
  { browser with history := browser.place :: browser.history }

def unselected : Browser :=
  { browser with selected := [], anchor := none }

def inBucket (path : Str) : Place :=
  { browser.place with pathFromUrl := path }

def requested (names : List Str) : Browser :=
  { browser with pendingDelete := names, confirmOpen := true }

def after : Action → Browser
  | .openFolder name =>
      { browser.unselected.push with serverSearchTerm := none }.go
        (browser.inBucket (joinPath [browser.place.pathFromUrl, name]))
  | .breadcrumb _ path => browser.push.go (browser.inBucket path)
  | .visit place => browser.push.go place
  | .back =>
      match browser.history with
      | [] => browser
      | place :: rest => { browser with history := rest }.go place
  | .redirect => browser.go (browser.inBucket browser.screen.folder)
  | .enterServerSearch trimmed =>
      if trimmed.isEmpty then browser
      else { browser.unselected with serverSearchTerm := some trimmed }
  | .exitServerSearch => { browser with serverSearchTerm := none }
  | .toggleSelect rows row shiftKey =>
      let toggled := handleToggle browser.selected browser.anchor row.entry.name shiftKey
        (rows.map fun shown => shown.entry.name)
      { browser with selected := toggled.1, anchor := toggled.2 }
  | .toggleSelectAll rows =>
      { browser with
        selected := handleToggleAll browser.selected (rows.map fun shown => shown.entry.name)
        anchor := none }
  | .clearSelection => browser.unselected
  | .requestDelete row => browser.requested [row.entry.name]
  | .requestSelected => browser.requested browser.selected
  | .cancelDelete => { browser with confirmOpen := false }
  | .confirmDelete _ =>
      { browser with
        confirmOpen := false
        batches := if browser.pendingDelete.isEmpty then browser.batches
          else browser.batches + 1 }
  | .batchDone => { browser.unselected with batches := browser.batches - 1 }
  | .folderLoaded place listing =>
      { browser with folder := fun asked => if asked = place then listing else browser.folder asked }
  | .searchLoaded place term listing =>
      { browser with
        search := fun asked text =>
          if asked = place ∧ text = term then listing else browser.search asked text }

end Browser

end Browsers

section Sessions

/-- A browser together with the rows that its user has picked: those selected now, and
those that the waiting delete was requested for. -/
structure Session where
  browser : Browser
  picked : List Row
  pending : List Row

/-- The rows that a click adds to the selection or takes from it. -/
def Browser.clicked (browser : Browser) : Action → List Row
  | .toggleSelect rows row shiftKey =>
      match clickedSpan browser.anchor row.entry.name shiftKey
        (rows.map fun shown => shown.entry.name) with
      | some (first, last) => between rows first last
      | none => [row]
  | .toggleSelectAll rows => rows
  | _ => []

def Session.candidates (session : Session) : Action → List Row
  | .toggleSelectAll rows => rows
  | action => session.picked ++ session.browser.clicked action

def Session.after (session : Session) (action : Action) : Session where
  browser := session.browser.after action
  picked := (session.candidates action).filter fun row =>
    (session.browser.after action).selected.contains row.entry.name
  pending := match action with
    | .requestDelete row => [row]
    | .requestSelected => session.picked
    | _ => session.pending

def SessionStep (session : Session) (action : Action) (next : Session) : Prop :=
  session.browser.Offers action ∧ next = session.after action

/-- The page has just been opened. -/
structure Session.Fresh (session : Session) : Prop where
  selected : session.browser.selected = []
  picked : session.picked = []
  pendingDelete : session.browser.pendingDelete = []
  pending : session.pending = []
  closed : session.browser.confirmOpen = false

end Sessions

end S3Manager.Doors
