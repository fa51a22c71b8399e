import Mathlib.Data.List.Flatten
import S3Manager.Library.Segments
import S3Manager.Storage.Requests

/-! `folderUpload.ts`: the files of a drop with their paths inside the dropped folders. A
directory hands out its children in batches. The items of the drop can be read until the drop
handler pauses for the first time, and walking an entry is such a pause. -/

set_option autoImplicit false

namespace S3Manager.Ui

open Python Library Storage

section Reader

variable {α : Type}

/-- A `FileSystemDirectoryReader`: the children that it still has to hand out, and the sizes of
its next batches, each less one, so that only the last batch is empty. -/
structure DirectoryReader (α : Type) where
  cuts : List Nat
  remaining : List α

/-- What `readEntries` gives, and the reader afterwards. -/
def readBatch (reader : DirectoryReader α) : List α × DirectoryReader α :=
  match reader.cuts with
  | [] => (reader.remaining, ⟨[], []⟩)
  | cut :: cuts => (reader.remaining.take (cut + 1), ⟨cuts, reader.remaining.drop (cut + 1)⟩)

theorem readBatch_split (reader : DirectoryReader α) :
    (readBatch reader).1 ++ (readBatch reader).2.remaining = reader.remaining := by
  unfold readBatch
  split
  · exact List.append_nil _
  · exact List.take_append_drop _ _

/-- An empty batch comes only when nothing is left. -/
theorem readBatch_empty {reader : DirectoryReader α} (empty : (readBatch reader).1 = []) :
    reader.remaining = [] := by
  unfold readBatch at empty
  split at empty
  · exact empty
  · exact (List.take_eq_nil_iff.mp empty).resolve_left (Nat.succ_ne_zero _)

/-- The loop of `drainReader`, which ends with the first empty batch. -/
def drainLoop (all : List α) (reader : DirectoryReader α) : List α :=
  let batch := (readBatch reader).1
  if batch.isEmpty then all else drainLoop (all ++ batch) (readBatch reader).2
termination_by reader.remaining.length
decreasing_by
  next live =>
    have split := congrArg List.length (readBatch_split reader)
    have some_ : 0 < (readBatch reader).1.length :=
      List.length_pos_iff.mpr fun empty => live (List.isEmpty_iff.mpr empty)
    rw [List.length_append] at split
    omega

def drainReader (reader : DirectoryReader α) : List α := drainLoop [] reader

theorem drainLoop_all (all : List α) (reader : DirectoryReader α) :
    drainLoop all reader = all ++ reader.remaining := by
  fun_induction drainLoop all reader with
  | case1 all reader batch empty =>
      rw [readBatch_empty (List.isEmpty_iff.mp empty), List.append_nil]
  | case2 all reader batch live ih =>
      rw [ih, List.append_assoc, readBatch_split]

/-- However a directory is cut into batches, all its children are read, in their order. -/
theorem drainReader_all (reader : DirectoryReader α) : drainReader reader = reader.remaining :=
  drainLoop_all [] reader

end Reader

section Model

/-- No file and no directory has an empty name. -/
abbrev EntryName : Type := {name : Str // name ≠ []}

structure File where
  name : Str
  content : Bytes
  deriving DecidableEq

/-- A `FileSystemEntry`; a directory comes with the sizes of the batches its reader makes. -/
inductive Entry where
  | file (name : EntryName) (file : File)
  | directory (name : EntryName) (cuts : List Nat) (children : List Entry)
  /-- neither `isFile` nor `isDirectory` -/
  | other (name : EntryName)

structure FileWithRelativePath where
  file : File
  relativePath : Str
  deriving DecidableEq

/-- The path of an entry: its name behind the prefix, if there is one. -/
def prefixedName (pathPrefix : Str) (name : EntryName) : Str :=
  if pathPrefix.isEmpty then name.1 else pathPrefix ++ '/' :: name.1

def walkEntry (entry : Entry) (pathPrefix : Str) : List FileWithRelativePath :=
  match entry with
  | .file name file => [⟨file, prefixedName pathPrefix name⟩]
  | .directory name cuts children =>
      let childPrefix := prefixedName pathPrefix name
      (drainReader ⟨cuts, children⟩).attach.flatMap fun child => walkEntry child.1 childPrefix
  | .other _ => []
termination_by sizeOf entry
decreasing_by
  have among : child.1 ∈ children := by simpa only [drainReader_all] using child.2
  have smaller := List.sizeOf_lt_of_mem among
  simp only [Entry.directory.sizeOf_spec]
  omega

inductive ItemKind where
  | string
  | file
  /-- What an item reads as once the drop is over. -/
  | gone
  deriving DecidableEq

/-- A `DataTransferItem`; the entry is there if `webkitGetAsEntry` exists and gives one. -/
structure DropItem where
  kind : ItemKind
  webkitGetAsEntry : Option Entry
  getAsFile : Option File

/-- The item after the first pause. -/
def DropItem.closed (_item : DropItem) : DropItem where
  kind := .gone
  webkitGetAsEntry := none
  getAsFile := none

/-- The loop over the items; `readable` says that there was no pause yet. -/
def expandLoop (readable : Bool) :
    List DropItem → List FileWithRelativePath → List FileWithRelativePath
  | [], results => results
  | item :: rest, results =>
      let item := if readable then item else item.closed
      if item.kind ≠ .file then expandLoop readable rest results
      else
        match item.webkitGetAsEntry with
        | some entry => expandLoop false rest (results ++ walkEntry entry [])
        | none =>
            match item.getAsFile with
            | some file => expandLoop readable rest (results ++ [⟨file, file.name⟩])
            | none => expandLoop readable rest results

def expandDirectoryEntries (items : List DropItem) : List FileWithRelativePath :=
  expandLoop true items []

end Model

section Reference

mutual

/-- The files of a tree, each with the names on the way to it. -/
def treeFiles : Entry → List (List Str × File)
  | .file name file => [([name.1], file)]
  | .directory name _ children =>
      (forestFiles children).map fun found => (name.1 :: found.1, found.2)
  | .other _ => []

def forestFiles : List Entry → List (List Str × File)
  | [] => []
  | child :: rest => treeFiles child ++ forestFiles rest

end

def relativeTo (parents : List Str) (found : List Str × File) : FileWithRelativePath where
  file := found.2
  relativePath := joinOn '/' (parents ++ found.1)

/-- What a dropped item holds: the files of its tree, or a file without a folder. -/
def DropItem.files (item : DropItem) : List FileWithRelativePath :=
  if item.kind ≠ .file then []
  else
    match item.webkitGetAsEntry with
    | some entry => (treeFiles entry).map (relativeTo [])
    | none => item.getAsFile.toList.map fun file => ⟨file, file.name⟩

/-- The item pauses the loop. -/
def DropItem.walked (item : DropItem) : Bool :=
  decide (item.kind = .file) && item.webkitGetAsEntry.isSome

/-- The items behind the first one that is walked. -/
def afterFirstWalk (items : List DropItem) : List DropItem :=
  (items.dropWhile fun item => !item.walked).tail

end Reference

section Walking

variable {item : DropItem}

theorem walkEntry_directory (name : EntryName) (cuts : List Nat) (children : List Entry)
    (pathPrefix : Str) :
    walkEntry (.directory name cuts children) pathPrefix =
      children.flatMap fun child => walkEntry child (prefixedName pathPrefix name) := by
  rw [walkEntry]
  show ((drainReader ⟨cuts, children⟩).attach.flatMap fun child =>
    walkEntry child.1 (prefixedName pathPrefix name)) = _
  simp only [List.flatMap_subtype, List.unattach_attach, drainReader_all]

/-- Names of directories, none of them empty. -/
def Named (parents : List Str) : Prop := ∀ name ∈ parents, name ≠ []

theorem Named.snoc {parents : List Str} (named : Named parents) (name : EntryName) :
    Named (parents ++ [name.1]) := by
  intro other member
  obtain early | last := List.mem_append.mp member
  · exact named other early
  · exact List.mem_singleton.mp last ▸ name.2

theorem prefixedName_join {parents : List Str} (named : Named parents) (name : EntryName) :
    prefixedName (joinOn '/' parents) name = joinOn '/' (parents ++ [name.1]) := by
  unfold prefixedName
  cases parents with
  | nil => exact (joinOn_one name.1).symm
  | cons first rest =>
      have live : (joinOn '/' (first :: rest)).isEmpty = false := by
        have head := named first List.mem_cons_self
        cases first with
        | nil => exact absurd rfl head
        | cons c tail =>
            cases rest with
            | nil => rfl
            | cons second more =>
                rw [joinOn_cons _ (List.cons_ne_nil second more)]
                rfl
      rw [live, joinOn_snoc (List.cons_ne_nil first rest)]
      rfl

mutual

/-- The walk gives the files of the tree, whatever batches its readers make. -/
theorem walkEntry_files (entry : Entry) {parents : List Str} (named : Named parents) :
    walkEntry entry (joinOn '/' parents) = (treeFiles entry).map (relativeTo parents) := by
  match entry with
  | .file name file =>
      rw [walkEntry, prefixedName_join named]
      rfl
  | .directory name cuts children =>
      rw [walkEntry_directory, prefixedName_join named, forest_files children (named.snoc name),
        treeFiles, List.map_map]
      refine List.map_congr_left fun found _ => ?_
      simp only [Function.comp_apply, relativeTo, List.append_assoc, List.singleton_append]
  | .other name =>
      rw [walkEntry]
      rfl

theorem forest_files (children : List Entry) {parents : List Str} (named : Named parents) :
    (children.flatMap fun child => walkEntry child (joinOn '/' parents)) =
      (forestFiles children).map (relativeTo parents) := by
  match children with
  | [] => rfl
  | child :: rest =>
      rw [List.flatMap_cons, walkEntry_files child named, forest_files rest named, forestFiles,
        List.map_append]

end

theorem walkEntry_root (entry : Entry) :
    walkEntry entry [] = (treeFiles entry).map (relativeTo []) :=
  @walkEntry_files entry [] fun _ member => absurd member List.not_mem_nil

end Walking

section Dropping

variable {items : List DropItem}

theorem expandLoop_closed (items : List DropItem) (results : List FileWithRelativePath) :
    expandLoop false items results = results := by
  induction items with
  | nil => rfl
  | cons item rest ih => exact ih

theorem afterFirstWalk_stays {item : DropItem} (rest : List DropItem) (stays : item.walked = false) :
    afterFirstWalk (item :: rest) = afterFirstWalk rest := by
  rw [afterFirstWalk, List.dropWhile_cons_of_pos (by rw [stays]; rfl), afterFirstWalk]

theorem afterFirstWalk_walks {item : DropItem} (rest : List DropItem) (walks : item.walked = true) :
    afterFirstWalk (item :: rest) = rest := by
  rw [afterFirstWalk, List.dropWhile_cons_of_neg (by rw [walks]; decide), List.tail_cons]

/-- An item that is not walked gives its files, and the loop goes on. -/
theorem expandLoop_stays {item : DropItem} (rest : List DropItem)
    (results : List FileWithRelativePath) (stays : item.walked = false) :
    expandLoop true (item :: rest) results = expandLoop true rest (results ++ item.files) := by
  obtain ⟨kind, entry, file⟩ := item
  cases kind with
  | string | gone =>
      show expandLoop true rest results = expandLoop true rest (results ++ [])
      rw [List.append_nil]
  | file =>
      cases entry with
      | some entry => cases stays
      | none =>
          cases file with
          | some file => rfl
          | none =>
              show expandLoop true rest results = expandLoop true rest (results ++ [])
              rw [List.append_nil]

/-- An item that is walked gives its files, and the loop reads nothing after it. -/
theorem expandLoop_walks {item : DropItem} (rest : List DropItem)
    (results : List FileWithRelativePath) (walks : item.walked = true) :
    expandLoop true (item :: rest) results = results ++ item.files := by
  obtain ⟨kind, entry, file⟩ := item
  cases kind with
  | string | gone => cases walks
  | file =>
      cases entry with
      | none => cases walks
      | some entry =>
          show expandLoop false rest (results ++ walkEntry entry []) = _
          rw [expandLoop_closed, walkEntry_root]
          rfl

/-- The loop gives what the items hold, up to the first one that it walks. -/
theorem expandLoop_open (items : List DropItem) (results : List FileWithRelativePath) :
    expandLoop true items results ++ (afterFirstWalk items).flatMap DropItem.files =
      results ++ items.flatMap DropItem.files := by
  induction items generalizing results with
  | nil => rfl
  | cons item rest ih =>
      rw [List.flatMap_cons, ← List.append_assoc]
      cases walks : item.walked with
      | false =>
          rw [expandLoop_stays rest results walks, afterFirstWalk_stays rest walks]
          exact ih _
      | true => rw [expandLoop_walks rest results walks, afterFirstWalk_walks rest walks]

/-- What is dropped is expanded completely exactly if no item behind the first walked one holds
a file. -/
theorem expand_complete_iff (items : List DropItem) :
    (expandDirectoryEntries items).Perm (items.flatMap DropItem.files) ↔
      ∀ item ∈ afterFirstWalk items, item.files = [] := by
  have whole := expandLoop_open items []
  rw [List.nil_append] at whole
  rw [← List.flatMap_eq_nil_iff, ← whole]
  constructor
  · intro same
    have length := same.length_eq
    rw [List.length_append] at length
    refine List.length_eq_zero_iff.mp ?_
    unfold expandDirectoryEntries at length
    omega
  · intro none_
    rw [none_, List.append_nil]
    exact List.Perm.refl _

def plainFile (name : Str) : File := ⟨name, [1]⟩

def fileItem (name : EntryName) : DropItem :=
  ⟨.file, some (.file name (plainFile name.1)), some (plainFile name.1)⟩

/-- Of two dropped files only the first one arrives. -/
theorem second_file_lost :
    ¬ ∀ items, (expandDirectoryEntries items).Perm (items.flatMap DropItem.files) := by
  intro all
  have length :=
    (all [fileItem ⟨lit "a.txt", by decide⟩, fileItem ⟨lit "b.txt", by decide⟩]).length_eq
  rw [expandDirectoryEntries, expandLoop_walks _ _ rfl] at length
  exact absurd length (by decide)

end Dropping

end S3Manager.Ui
