import S3Manager.Library.Inline
import S3Manager.Ui.BulkDelete
import S3Manager.Ui.DroppedFolders

/-! The upload of several files in the file browser: one request after the other, until the user
cancels, and a summary that tells of every file what has become of it. -/

set_option autoImplicit false

namespace S3Manager.Ui

open Python Library

section Model

inductive UploadStatus where
  | pending
  | uploading
  | finalizing
  | done
  | error
  | cancelled
  deriving DecidableEq

structure UploadProgressItem where
  name : Str
  status : UploadStatus
  error : Option Str
  progress : Option Nat

/-- Why an upload was rejected: by an `AbortError`, or by another error. -/
inductive UploadFailure where
  | aborted
  | failed (message : Str)

/-- What happens to an upload before it is settled. -/
inductive UploadEvent where
  | progress (percent : Nat)
  | finalizing

/-- The arguments of `uploadFile` that belong to the file. -/
structure FileUpload where
  key : Str
  file : File

structure UploadReply where
  events : List UploadEvent
  outcome : Except UploadFailure Unit

namespace UploadProgressItem

variable (item : UploadProgressItem)

def start (chosen : FileWithRelativePath) : UploadProgressItem :=
  ⟨chosen.file.name, .pending, none, none⟩

def cancel : UploadProgressItem := { item with status := .cancelled }

def refuse (message : Str) : UploadProgressItem :=
  { item with status := .error, error := some message }

/-- `onProgress` and `onFinalizing` -/
def hear : UploadEvent → UploadProgressItem
  | .progress percent => { item with progress := some percent }
  | .finalizing => { item with status := .finalizing, progress := some 100 }

def settle (reply : UploadReply) : UploadProgressItem :=
  let shown := reply.events.foldl hear { item with status := .uploading, progress := some 0 }
  match reply.outcome with
  | .ok () => { shown with status := .done, progress := some 100 }
  | .error .aborted => { shown with status := .cancelled, error := none }
  | .error (.failed message) => { shown with status := .error, error := some message }

end UploadProgressItem

/-- What the summary toast shows, and whether the list of files is fetched again. -/
structure UploadReport where
  items : List UploadProgressItem
  color : Color
  anyUploaded : Bool

variable (uploadKey : Str → Str) (maxFileSize : Option Int) (formatBytes : Int → Str)

def tooLarge (chosen : FileWithRelativePath) : Option Str :=
  maxFileSize.bind fun limit =>
    if limit < chosen.file.content.length then
      some (lit "File is " ++ formatBytes chosen.file.content.length ++ lit ", limit is " ++
        formatBytes limit)
    else none

def FileWithRelativePath.request (chosen : FileWithRelativePath) : FileUpload :=
  ⟨uploadKey chosen.relativePath, chosen.file⟩

/-- The loop of `handleUpload`. `aborted` tells for the turn of each file whether the user has
cancelled by then. -/
def uploadFiles : (Nat → Bool) → List FileWithRelativePath →
    Program (fun _ : FileUpload => UploadReply) (List UploadProgressItem)
  | _, [] => .pure []
  | aborted, chosen :: rest =>
      if aborted 0 then
        .pure ((chosen :: rest).map fun skipped => (UploadProgressItem.start skipped).cancel)
      else
        match tooLarge maxFileSize formatBytes chosen with
        | some message =>
            (uploadFiles (fun i => aborted (i + 1)) rest).bind fun items =>
              .pure ((UploadProgressItem.start chosen).refuse message :: items)
        | none =>
            .perform (chosen.request uploadKey) fun reply =>
              (uploadFiles (fun i => aborted (i + 1)) rest).bind fun items =>
                .pure ((UploadProgressItem.start chosen).settle reply :: items)

def UploadReport.of (items : List UploadProgressItem) : UploadReport where
  items := items
  color :=
    if items.all fun item => item.status == .done then .green
    else if (items.any fun item => item.status == .cancelled) &&
        !items.any fun item => item.status == .error then .gray
    else .yellow
  anyUploaded := items.any fun item => item.status == .done

def handleUpload (aborted : Nat → Bool) (files : List FileWithRelativePath) :
    Program (fun _ : FileUpload => UploadReply) UploadReport :=
  (uploadFiles uploadKey maxFileSize formatBytes aborted files).bind fun items => .pure (.of items)

end Model

section Reports

/-- The uploads so far, each with what has become of it. -/
abbrev UploadLog := List (FileUpload × UploadReply)

def UploadLog.record (request : FileUpload) (reply : UploadReply) (log : UploadLog) : UploadLog :=
  log ++ [(request, reply)]

def landed (entry : FileUpload × UploadReply) : Bool := entry.2.outcome.isOk

/-- What the answer to an upload makes of its file: its status, and its error. -/
def ownAnswer : Except UploadFailure Unit → UploadStatus × Option Str
  | .ok () => (.done, none)
  | .error .aborted => (.cancelled, none)
  | .error (.failed message) => (.error, some message)

variable (uploadKey : Str → Str) (maxFileSize : Option Int) (formatBytes : Int → Str)

/-- The files of a batch and their lines in the summary: `stop` files had their turn before the
user cancelled. Those that are not too large were sent, in their order, and nothing else was; the
line of each of them is what its own answer says. -/
structure Listed (aborted : Nat → Bool) (files : List FileWithRelativePath) (log : UploadLog)
    (items : List UploadProgressItem) (stop : Nat) : Prop where
  within : stop ≤ files.length
  going : ∀ i < stop, aborted i = false
  stopped : stop < files.length → aborted stop = true
  sent : log.map Prod.fst =
    ((files.take stop).filter fun chosen => (tooLarge maxFileSize formatBytes chosen).isNone).map
      fun chosen => chosen.request uploadKey
  names : items.map UploadProgressItem.name = files.map fun chosen => chosen.file.name
  settled : ∀ item ∈ items, item.status = .done ∨ item.status = .error ∨ item.status = .cancelled
  answered : (((files.take stop).zip items).filter fun line =>
      (tooLarge maxFileSize formatBytes line.1).isNone).map
    (fun line => (line.2.status, line.2.error)) = log.map fun entry => ownAnswer entry.2.outcome
  done : ((files.zip items).filter fun line => line.2.status == .done).map
      (fun line => line.1.request uploadKey) = (log.filter landed).map Prod.fst
  refused : ∀ line ∈ (files.take stop).zip items, ∀ message,
    tooLarge maxFileSize formatBytes line.1 = some message →
      line.2.status = .error ∧ line.2.error = some message
  skipped : ∀ item ∈ items.drop stop, item.status = .cancelled

end Reports

section Batches

variable {uploadKey : Str → Str} {maxFileSize : Option Int} {formatBytes : Int → Str}
  {aborted : Nat → Bool} {chosen : FileWithRelativePath} {rest : List FileWithRelativePath}
  {log : UploadLog} {items : List UploadProgressItem} {stop : Nat} {item : UploadProgressItem}
  {reply : UploadReply} {message : Str}

/-- The events of an upload change neither its name nor its error. -/
theorem hear_keeps (events : List UploadEvent) (item : UploadProgressItem) :
    (events.foldl UploadProgressItem.hear item).name = item.name ∧
      (events.foldl UploadProgressItem.hear item).error = item.error := by
  induction events generalizing item with
  | nil => exact ⟨rfl, rfl⟩
  | cons event rest ih =>
      rw [List.foldl_cons, (ih _).1, (ih _).2]
      cases event <;> exact ⟨rfl, rfl⟩

theorem settle_name : (item.settle reply).name = item.name := by
  unfold UploadProgressItem.settle
  dsimp only
  split <;> exact (hear_keeps _ _).1

theorem settle_status : (item.settle reply).status = (ownAnswer reply.outcome).1 := by
  unfold UploadProgressItem.settle
  split <;> next outcome => rw [outcome]; rfl

theorem settle_error (fresh : item.error = none) :
    (item.settle reply).error = (ownAnswer reply.outcome).2 := by
  unfold UploadProgressItem.settle
  split
  · next outcome =>
      rw [outcome]
      exact (hear_keeps _ _).2.trans fresh
  · next outcome =>
      rw [outcome]
      rfl
  · next message outcome =>
      rw [outcome]
      rfl

theorem landed_iff {request : FileUpload} :
    landed (request, reply) = true ↔ (item.settle reply).status = .done := by
  rw [settle_status, landed]
  cases reply.outcome with
  | ok value => simp [Except.isOk, Except.toBool, ownAnswer]
  | error failure => cases failure <;> simp [Except.isOk, Except.toBool, ownAnswer]

theorem ownAnswer_final (outcome : Except UploadFailure Unit) :
    (ownAnswer outcome).1 = .done ∨ (ownAnswer outcome).1 = .error ∨
      (ownAnswer outcome).1 = .cancelled := by
  cases outcome with
  | ok value => exact .inl rfl
  | error failure => cases failure <;> simp [ownAnswer]

/-- The user has cancelled before the first file of these. -/
theorem listed_cancelled (files : List FileWithRelativePath) (stopped : aborted 0 = true) :
    Listed uploadKey maxFileSize formatBytes aborted files []
      (files.map fun skipped => (UploadProgressItem.start skipped).cancel) 0 where
  within := Nat.zero_le _
  going := by simp
  stopped _ := stopped
  sent := rfl
  names := by
    rw [List.map_map]
    rfl
  settled := by
    simp [UploadProgressItem.cancel]
  answered := rfl
  done := by
    have none : ∀ line ∈ files.zip (files.map fun skipped => (UploadProgressItem.start skipped).cancel),
        ¬ (line.2.status == .done) = true := by
      rintro ⟨file, item⟩ line
      obtain ⟨other, -, rfl⟩ := List.mem_map.mp (List.of_mem_zip line).2
      simp [UploadProgressItem.cancel]
    rw [List.filter_eq_nil_iff.mpr none]
    rfl
  refused := by simp
  skipped := by
    simp [UploadProgressItem.cancel]

theorem going_succ (going : aborted 0 = false) (later : ∀ i < stop, aborted (i + 1) = false) :
    ∀ i < stop + 1, aborted i = false := by
  rintro (_ | i) early
  · exact going
  · exact later i (Nat.lt_of_succ_lt_succ early)

theorem listed_refuse (going : aborted 0 = false)
    (large : tooLarge maxFileSize formatBytes chosen = some message)
    (listed : Listed uploadKey maxFileSize formatBytes (fun i => aborted (i + 1)) rest log items stop) :
    Listed uploadKey maxFileSize formatBytes aborted (chosen :: rest) log
      ((UploadProgressItem.start chosen).refuse message :: items) (stop + 1) where
  within := Nat.succ_le_succ listed.within
  going := going_succ going listed.going
  stopped early := listed.stopped (Nat.lt_of_succ_lt_succ early)
  sent := by
    rw [List.take_succ_cons, List.filter_cons_of_neg (by simp [large]), listed.sent]
  names := by
    rw [List.map_cons, List.map_cons, listed.names]
    rfl
  settled := by
    rw [List.forall_mem_cons]
    exact ⟨.inr (.inl rfl), listed.settled⟩
  answered := by
    rw [List.take_succ_cons, List.zip_cons_cons, List.filter_cons_of_neg (by simp [large]),
      listed.answered]
  done := by
    rw [List.zip_cons_cons, List.filter_cons_of_neg (by simp [UploadProgressItem.refuse]), listed.done]
  refused := by
    rw [List.take_succ_cons, List.zip_cons_cons, List.forall_mem_cons]
    refine ⟨fun other same => ?_, listed.refused⟩
    obtain rfl := Option.some.inj (large.symm.trans same)
    exact ⟨rfl, rfl⟩
  skipped := listed.skipped

theorem listed_settle (going : aborted 0 = false)
    (fits : tooLarge maxFileSize formatBytes chosen = none)
    (listed : Listed uploadKey maxFileSize formatBytes (fun i => aborted (i + 1)) rest log items stop) :
    Listed uploadKey maxFileSize formatBytes aborted (chosen :: rest)
      ((chosen.request uploadKey, reply) :: log)
      ((UploadProgressItem.start chosen).settle reply :: items) (stop + 1) where
  within := Nat.succ_le_succ listed.within
  going := going_succ going listed.going
  stopped early := listed.stopped (Nat.lt_of_succ_lt_succ early)
  sent := by
    rw [List.take_succ_cons, List.filter_cons_of_pos (by simp [fits]), List.map_cons, List.map_cons,
      listed.sent]
  names := by
    rw [List.map_cons, List.map_cons, listed.names, settle_name]
    rfl
  settled := by
    rw [List.forall_mem_cons, settle_status]
    exact ⟨ownAnswer_final _, listed.settled⟩
  answered := by
    rw [List.take_succ_cons, List.zip_cons_cons, List.filter_cons_of_pos (by simp [fits]),
      List.map_cons, List.map_cons, listed.answered, settle_status, settle_error rfl]
  done := by
    have same := @landed_iff (UploadProgressItem.start chosen) reply (chosen.request uploadKey)
    rw [List.zip_cons_cons]
    by_cases good : landed (chosen.request uploadKey, reply) = true
    · rw [List.filter_cons_of_pos (by simpa using same.mp good), List.filter_cons_of_pos good,
        List.map_cons, List.map_cons, listed.done]
    · rw [List.filter_cons_of_neg (by simpa using fun done => good (same.mpr done)),
        List.filter_cons_of_neg good, listed.done]
  refused := by
    rw [List.take_succ_cons, List.zip_cons_cons, List.forall_mem_cons]
    refine ⟨fun other same => ?_, listed.refused⟩
    rw [fits] at same
    cases same
  skipped := listed.skipped

/-- Whatever becomes of the uploads, every file has its line. -/
theorem uploadFiles_ends (aborted : Nat → Bool) (files : List FileWithRelativePath) (log : UploadLog) :
    (uploadFiles uploadKey maxFileSize formatBytes aborted files).ends UploadLog.record
      (fun final items => ∃ more stop, final = log ++ more ∧
        Listed uploadKey maxFileSize formatBytes aborted files more items stop) log := by
  induction files generalizing aborted log with
  | nil =>
      refine ⟨[], 0, (List.append_nil log).symm, ?_⟩
      constructor <;> simp
  | cons chosen rest ih =>
      unfold uploadFiles
      split
      · next stopped => exact ⟨[], 0, (List.append_nil log).symm, listed_cancelled _ stopped⟩
      · next going =>
          replace going := Bool.not_eq_true _ ▸ going
          split
          · next message large =>
              refine Program.ends_bind (ih (fun i => aborted (i + 1)) log) ?_
              rintro final items ⟨more, stop, rfl, listed⟩
              exact ⟨more, stop + 1, rfl, listed_refuse going large listed⟩
          · next fits =>
              intro reply
              refine Program.ends_bind (ih (fun i => aborted (i + 1)) _) ?_
              rintro final items ⟨more, stop, rfl, listed⟩
              refine ⟨(chosen.request uploadKey, reply) :: more, stop + 1, ?_,
                listed_settle going fits listed⟩
              simp [UploadLog.record]

/-- No other file is sent, and none under another key. -/
theorem uploadFiles_asks {files : List FileWithRelativePath} (aborted : Nat → Bool)
    (among : ∀ chosen ∈ rest, chosen ∈ files) :
    (uploadFiles uploadKey maxFileSize formatBytes aborted rest).Asks fun request =>
      ∃ chosen ∈ files, request = chosen.request uploadKey := by
  induction rest generalizing aborted with
  | nil => exact trivial
  | cons chosen rest ih =>
      obtain ⟨here, later⟩ := List.forall_mem_cons.mp among
      unfold uploadFiles
      split
      · exact trivial
      · split
        · exact Program.asks_bind (ih _ later) fun _ => trivial
        · exact ⟨⟨chosen, here, rfl⟩, fun reply _ => Program.asks_bind (ih _ later) fun _ => trivial⟩

theorem handleUpload_asks (aborted : Nat → Bool) (files : List FileWithRelativePath) :
    (handleUpload uploadKey maxFileSize formatBytes aborted files).Asks fun request =>
      ∃ chosen ∈ files, request = chosen.request uploadKey :=
  Program.asks_bind (uploadFiles_asks aborted fun _ => id) fun _ => trivial

end Batches

section Told

variable {uploadKey : Str → Str} {maxFileSize : Option Int} {formatBytes : Int → Str}
  {aborted : Nat → Bool} {files : List FileWithRelativePath} {log : UploadLog}
  {items : List UploadProgressItem} {stop : Nat}

theorem listed_length (listed : Listed uploadKey maxFileSize formatBytes aborted files log items stop) :
    items.length = files.length := by
  simpa using congrArg List.length listed.names

/-- The request of a file that is told of as done has succeeded. -/
theorem listed_done {line : FileWithRelativePath × UploadProgressItem}
    (listed : Listed uploadKey maxFileSize formatBytes aborted files log items stop)
    (told : line ∈ files.zip items) (done : line.2.status = .done) :
    ∃ reply, (line.1.request uploadKey, reply) ∈ log ∧ reply.outcome = .ok () := by
  have member : line.1.request uploadKey ∈ (log.filter landed).map Prod.fst := by
    rw [← listed.done]
    exact List.mem_map_of_mem (List.mem_filter.mpr ⟨told, by simpa using done⟩)
  obtain ⟨⟨request, reply⟩, found, same⟩ := List.mem_map.mp member
  obtain ⟨logged, good⟩ := List.mem_filter.mp found
  refine ⟨reply, same ▸ logged, ?_⟩
  cases outcome : reply.outcome with
  | ok value => rfl
  | error failure => simp [landed, outcome, Except.isOk, Except.toBool] at good

theorem listed_items (listed : Listed uploadKey maxFileSize formatBytes aborted files log items stop) :
    items = (files.zip items).map Prod.snd :=
  (List.map_snd_zip (listed_length listed).le).symm

theorem listed_sent_length
    (listed : Listed uploadKey maxFileSize formatBytes aborted files log items stop) :
    log.length ≤ files.length := by
  have lengths := congrArg List.length listed.sent
  rw [List.length_map, List.length_map] at lengths
  rw [lengths]
  exact (List.length_filter_le _ _).trans (List.length_take_le' _ _)

theorem all_done_iff (listed : Listed uploadKey maxFileSize formatBytes aborted files log items stop) :
    (items.all fun item => item.status == .done) = true ↔
      log.map Prod.fst = files.map (fun chosen => chosen.request uploadKey) ∧
        log.all landed = true := by
  have lines : (files.zip items).length = files.length := by
    rw [List.length_zip, listed_length listed, Nat.min_self]
  have lengths := congrArg List.length listed.done
  rw [List.length_map, List.length_map] at lengths
  constructor
  · intro all
    rw [listed_items listed, List.all_map, List.all_eq_true] at all
    have whole := List.filter_eq_self.mpr all
    simp only [Function.comp_def] at whole
    rw [whole, lines] at lengths
    have every : log.filter landed = log :=
      List.filter_sublist.eq_of_length_le (lengths ▸ listed_sent_length listed)
    have done := listed.done
    rw [whole, every] at done
    refine ⟨?_, List.all_eq_true.mpr (List.filter_eq_self.mp every)⟩
    rw [← done, ← Function.comp_def, ← List.map_map, List.map_fst_zip (listed_length listed).ge]
  · rintro ⟨sent, all⟩
    have every := List.filter_eq_self.mpr (List.all_eq_true.mp all)
    have size := congrArg List.length sent
    rw [List.length_map, List.length_map] at size
    rw [every, size, ← lines] at lengths
    have whole := List.filter_sublist.eq_of_length lengths
    rw [listed_items listed, List.all_map, List.all_eq_true]
    exact List.filter_eq_self.mp whole

theorem any_done (listed : Listed uploadKey maxFileSize formatBytes aborted files log items stop) :
    (items.any fun item => item.status == .done) = log.any landed := by
  have lengths := congrArg List.length listed.done
  rw [List.length_map, List.length_map, ← List.countP_eq_length_filter,
    ← List.countP_eq_length_filter] at lengths
  rw [Bool.eq_iff_iff, listed_items listed, List.any_map, List.any_eq_true, List.any_eq_true,
    ← List.countP_pos_iff, ← List.countP_pos_iff, ← lengths]
  rfl

theorem all_done : (items.all fun item => item.status == .done) = true ↔
    ∀ item ∈ items, item.status = .done := by
  simp

theorem color_of (items : List UploadProgressItem) : (UploadReport.of items).color =
    if ∀ item ∈ items, item.status = .done then .green
    else if (∃ item ∈ items, item.status = .cancelled) ∧ ∀ item ∈ items, item.status ≠ .error then
      .gray
    else .yellow := by
  simp [UploadReport.of]

theorem green_iff : (UploadReport.of items).color = .green ↔
    ∀ item ∈ items, item.status = .done := by
  rw [color_of]
  split_ifs with all cancelled
  · exact iff_of_true rfl all
  · exact iff_of_false id all
  · exact iff_of_false id all

theorem gray_iff : (UploadReport.of items).color = .gray ↔
    (∃ item ∈ items, item.status = .cancelled) ∧ ∀ item ∈ items, item.status ≠ .error := by
  rw [color_of]
  split_ifs with all cancelled
  · refine iff_of_false id ?_
    rintro ⟨⟨item, member, cancelled⟩, -⟩
    rw [all item member] at cancelled
    cases cancelled
  · exact iff_of_true rfl cancelled
  · exact iff_of_false id cancelled

theorem yellow_iff (settled : ∀ item ∈ items,
      item.status = .done ∨ item.status = .error ∨ item.status = .cancelled) :
    (UploadReport.of items).color = .yellow ↔ ∃ item ∈ items, item.status = .error := by
  rw [color_of]
  split_ifs with all cancelled
  · refine iff_of_false id ?_
    rintro ⟨item, member, failed⟩
    rw [all item member] at failed
    cases failed
  · refine iff_of_false id ?_
    rintro ⟨item, member, failed⟩
    exact cancelled.2 item member failed
  · -- Not all are done, so one has failed or was cancelled, and where none failed it is gray.
    refine iff_of_true rfl ?_
    by_contra none
    push Not at all none
    obtain ⟨item, member, other⟩ := all
    obtain done | failed | stopped := settled item member
    · exact other done
    · exact none item member failed
    · exact cancelled ⟨⟨item, member, stopped⟩, none⟩

variable (uploadKey maxFileSize formatBytes)

/-- What the summary of a batch is worth. -/
structure Reported (aborted : Nat → Bool) (files : List FileWithRelativePath) (log : UploadLog)
    (report : UploadReport) : Prop where
  listed : ∃ stop, Listed uploadKey maxFileSize formatBytes aborted files log report.items stop
  clean : report.color = .green ↔
    log.map Prod.fst = files.map (fun chosen => chosen.request uploadKey) ∧ log.all landed = true
  green : report.color = .green ↔ ∀ item ∈ report.items, item.status = .done
  gray : report.color = .gray ↔ (∃ item ∈ report.items, item.status = .cancelled) ∧
    ∀ item ∈ report.items, item.status ≠ .error
  yellow : report.color = .yellow ↔ ∃ item ∈ report.items, item.status = .error
  refetch : report.anyUploaded = log.any landed

theorem handleUpload_ends (aborted : Nat → Bool) (files : List FileWithRelativePath) :
    (handleUpload uploadKey maxFileSize formatBytes aborted files).ends UploadLog.record
      (fun log report => ∃ stop items,
        Listed uploadKey maxFileSize formatBytes aborted files log items stop ∧ report = .of items)
      [] := by
  refine Program.ends_bind (uploadFiles_ends aborted files []) ?_
  rintro log items ⟨more, stop, rfl, listed⟩
  exact ⟨stop, items, listed, rfl⟩

/-- Whatever becomes of the uploads and whenever the user cancels: the files are sent in their
order, but for those that are too large and those whose turn comes too late; every file is told
of as uploaded, failed or cancelled, by its own answer; the summary is green when every file has
been sent and has arrived, yellow when one has failed, and gray when some were cancelled and none
has failed. -/
theorem bulk_upload_tells (aborted : Nat → Bool) (files : List FileWithRelativePath) :
    (handleUpload uploadKey maxFileSize formatBytes aborted files).ends UploadLog.record
      (Reported uploadKey maxFileSize formatBytes aborted files) [] := by
  refine Program.ends_mono (handleUpload_ends uploadKey maxFileSize formatBytes aborted files) ?_
  rintro log _ ⟨stop, items, listed, rfl⟩
  have clean := (green_iff.trans all_done.symm).trans (all_done_iff listed)
  exact ⟨⟨stop, listed⟩, clean, green_iff, gray_iff, yellow_iff listed.settled, any_done listed⟩

end Told

end S3Manager.Ui
