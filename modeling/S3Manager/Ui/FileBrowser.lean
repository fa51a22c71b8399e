import S3Manager.Storage.Listings

/-! The file browser of the web frontend: the folder it shows, and the path or key
that it sends for a listed entry or for an upload. -/

set_option autoImplicit false

namespace S3Manager.Ui

open Python Access Storage Library

def joinPath (segments : List Str) : Str :=
  ['/'].intercalate ((segments.map stripSlash).filter fun segment => !segment.isEmpty)

/-- `filter((d) => (seenDir.has(d.name) ? false : (seenDir.add(d.name), true)))` -/
def distinctNames : List Str → List FileEntry → List FileEntry
  | _, [] => []
  | seenDir, entry :: rest =>
      if seenDir.contains entry.name then distinctNames seenDir rest
      else entry :: distinctNames (entry.name :: seenDir) rest

section Distinct

variable {seen : List Str} {entries : List FileEntry} {entry : FileEntry}

theorem mem_distinctNames (member : entry ∈ distinctNames seen entries) : entry ∈ entries := by
  induction entries generalizing seen with
  | nil => simp [distinctNames] at member
  | cons first rest ih =>
      simp only [distinctNames] at member
      split at member
      · exact List.mem_cons_of_mem _ (ih member)
      · obtain rfl | later := List.mem_cons.mp member
        · exact List.mem_cons_self
        · exact List.mem_cons_of_mem _ (ih later)

theorem distinctNames_name (member : entry ∈ entries)
    (fresh : entry.name ∉ seen) :
    ∃ kept ∈ distinctNames seen entries, kept.name = entry.name := by
  induction entries generalizing seen with
  | nil => simp at member
  | cons first rest ih =>
      by_cases same : first.name = entry.name
      · have new : ¬ seen.contains first.name = true := by simpa [same] using fresh
        exact ⟨first, by rw [distinctNames, if_neg new]; exact List.mem_cons_self, same⟩
      · have later : entry ∈ rest := by
          obtain rfl | later := List.mem_cons.mp member
          · exact absurd rfl same
          · exact later
        simp only [distinctNames]
        split
        · exact ih later fresh
        · obtain ⟨kept, found, named⟩ :=
            @ih (first.name :: seen) later (by simp [Ne.symm same, fresh])
          exact ⟨kept, List.mem_cons_of_mem _ found, named⟩

end Distinct

/-- The key of a file with this relative path in a folder. -/
def keyUnder (folder relativePath : Str) : Str :=
  if folder.isEmpty then relativePath else folder ++ '/' :: relativePath

/-- A folder that is open: the path in the address bar, and the chunks of its
listing that have arrived. -/
structure Screen where
  pathFromUrl : Str
  pages : List ClientLoad

namespace Screen

variable (screen : Screen)

/-- The folder that is shown. An empty path is soon replaced by the path that the first
chunk was listed for. -/
def folder : Str :=
  if screen.pathFromUrl.isEmpty then (screen.pages.head?.map ClientLoad.path).getD []
  else screen.pathFromUrl

/-- The page is at the folder that it shows: no empty path waits for its replacement. -/
def Settled : Prop := screen.folder = screen.pathFromUrl

def directories : List FileEntry :=
  distinctNames [] (screen.pages.flatMap ClientLoad.directories)

def files : List FileEntry :=
  screen.pages.flatMap ClientLoad.files

def items : List FileEntry :=
  screen.directories ++ screen.files

/-- The path that a folder is opened by, and that is sent to the download and presigned-URL
routes. -/
def fullPath (name : Str) : Str :=
  joinPath [screen.pathFromUrl, name]

/-- The path sent to the delete route: `confirmDelete` looks the name up again. -/
def deletePath (name : Str) : Str :=
  match screen.items.find? fun item => item.name == name with
  | some item => if item.isDirectory then screen.fullPath name ++ ['/'] else screen.fullPath name
  | none => screen.fullPath name

/-- The key sent to the upload route. -/
def uploadKey (relativePath : Str) : Str :=
  keyUnder screen.pathFromUrl relativePath

end Screen

end S3Manager.Ui
