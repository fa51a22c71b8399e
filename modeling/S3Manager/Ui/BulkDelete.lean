import S3Manager.Library.Program
import S3Manager.Python.Text

/-! The delete of several selected names in the file browser: one request after the other,
until the user cancels or the failures do not end, and one notice for all of them. -/

set_option autoImplicit false

namespace S3Manager.Ui

open Python Library

section Model

/-- What becomes of a request: it succeeds, or an error with a message is thrown. -/
abbrev Outcome := Except Str Unit

structure DeleteBatch where
  success : Nat
  failed : Nat
  firstError : Option Str
  consecutiveFailures : Nat

inductive Ending where
  | finished
  | cancelled
  | aborted
  deriving DecidableEq

inductive Color where
  | red
  | yellow
  | green
  | gray
  deriving DecidableEq

/-- What a toast shows. -/
structure Notice where
  color : Color
  message : Str

def maxConsecutiveFailures : Nat := 10

def decimal (n : Nat) : Str := Nat.toDigits 10 n

namespace DeleteBatch

def start : DeleteBatch := ⟨0, 0, none, 0⟩

def deleted (batch : DeleteBatch) : DeleteBatch :=
  { batch with success := batch.success + 1, consecutiveFailures := 0 }

def failedOn (batch : DeleteBatch) (name message : Str) : DeleteBatch :=
  { batch with
    failed := batch.failed + 1
    consecutiveFailures := batch.consecutiveFailures + 1
    firstError := batch.firstError.or (some (name ++ lit ": " ++ message)) }

def shownError (batch : DeleteBatch) : Str := batch.firstError.getD (lit "null")

/-- The summary toast of `confirmDelete`. -/
def notice (batch : DeleteBatch) (total : Nat) : Ending → Option Notice
  | .aborted => some ⟨.red,
      lit "Bulk delete stopped after " ++ decimal maxConsecutiveFailures ++
        lit " consecutive failures (" ++ batch.shownError ++ lit "). Deleted " ++
        decimal batch.success ++ lit ", failed " ++ decimal batch.failed ++ lit ", skipped " ++
        decimal (total - batch.success - batch.failed) ++ lit "."⟩
  | .cancelled => some ⟨.yellow,
      lit "Bulk delete cancelled. Deleted " ++ decimal batch.success ++ lit " of " ++
        decimal total ++ lit "; " ++ decimal (total - batch.success - batch.failed) ++
        lit " skipped."⟩
  | .finished =>
      if 0 < batch.failed ∧ batch.success = 0 then
        some ⟨.red,
          if batch.failed = 1 ∧ total = 1 then lit "Failed to delete " ++ batch.shownError
          else lit "Failed to delete " ++ decimal batch.failed ++ lit " of " ++ decimal total ++
            lit " (first: " ++ batch.shownError ++ lit ")"⟩
      else if 0 < batch.failed then
        some ⟨.yellow, lit "Deleted " ++ decimal batch.success ++ lit " of " ++ decimal total ++
          lit "; " ++ decimal batch.failed ++ lit " failed (first: " ++ batch.shownError ++ lit ")"⟩
      else if 0 < batch.success then
        some ⟨.green, lit "Deleted " ++ decimal batch.success ++ lit " item" ++
          if batch.success = 1 then [] else lit "s"⟩
      else none

end DeleteBatch

variable (deletePath : Str → Str) (cancelled : Nat → Bool)

/-- The loop of `confirmDelete`, and whether its Cancel has been clicked when it looks: before
the name at an index, and in the end. -/
def deleteNames : Nat → List Str → DeleteBatch → Program (fun _ : Str => Outcome) (DeleteBatch × Ending)
  | i, [], batch => .pure (batch, if cancelled i then .cancelled else .finished)
  | i, name :: rest, batch =>
      if cancelled i then .pure (batch, .cancelled)
      else
        .perform (deletePath name) fun
          | .ok () => deleteNames (i + 1) rest batch.deleted
          | .error message =>
              let batch := batch.failedOn name message
              if maxConsecutiveFailures ≤ batch.consecutiveFailures then .pure (batch, .aborted)
              else deleteNames (i + 1) rest batch

/-- One name alone has no Cancel. -/
def clicked (names : List Str) (i : Nat) : Bool := decide (1 < names.length) && cancelled i

/-- The batch of a confirmed delete. -/
def confirmDelete (names : List Str) : Program (fun _ : Str => Outcome) (Option Notice) :=
  if names.isEmpty then .pure none
  else
    (deleteNames deletePath (clicked cancelled names) 0 names .start).bind fun ended => .pure (ended.1.notice names.length ended.2)

end Model

section Accounts

/-- The requests so far, each with what has become of it. -/
abbrev RequestLog := List (Str × Outcome)

def RequestLog.record (path : Str) (outcome : Outcome) (log : RequestLog) : RequestLog :=
  log ++ [(path, outcome)]

def succeeded (entry : Str × Outcome) : Bool := entry.2.isOk

/-- How many of the last requests failed in a row. -/
def RequestLog.trailingFailures (log : RequestLog) : Nat :=
  (log.reverse.takeWhile fun entry => !succeeded entry).length

def failureText (name : Str) : Outcome → Option Str
  | .ok () => none
  | .error message => some (name ++ lit ": " ++ message)

/-- The first failure, under the name that it was met for. -/
def RequestLog.firstFailure (names : List Str) (log : RequestLog) : Option Str :=
  (names.zip log).findSome? fun met => failureText met.1 met.2.2

variable (deletePath : Str → Str) (cancelled : Nat → Bool)

/-- The counters are those of the log, and nothing has stopped the batch on the way. -/
structure Counts (names : List Str) (log : RequestLog) (batch : DeleteBatch) : Prop where
  sent : log.map Prod.fst = (names.take log.length).map deletePath
  success : batch.success = log.countP succeeded
  failed : batch.failed = log.countP fun entry => !succeeded entry
  firstError : batch.firstError = log.firstFailure names
  live : ∀ i < log.length, cancelled i = false ∧
    RequestLog.trailingFailures (log.take i) < maxConsecutiveFailures

/-- The names whose requests have succeeded. -/
def deletedNames (names : List Str) (log : RequestLog) : List Str :=
  ((names.zip log).filter fun met => succeeded met.2).map Prod.fst

/-- How a batch has ended, and that it had to. -/
structure Ended (names : List Str) (log : RequestLog) (ending : Ending) : Prop where
  reason : ending =
    if maxConsecutiveFailures ≤ log.trailingFailures then .aborted
    else if cancelled log.length then .cancelled
    else .finished
  whole : ending = .finished → log.length = names.length

end Accounts

section Batches

variable {deletePath : Str → Str} {cancelled : Nat → Bool} {names before rest : List Str}
  {log : RequestLog} {batch : DeleteBatch} {name path message : Str} {outcome : Outcome}

theorem trailing_ok : RequestLog.trailingFailures (log ++ [(path, .ok ())]) = 0 := by
  simp [RequestLog.trailingFailures, succeeded, Except.isOk, Except.toBool]

theorem trailing_error :
    RequestLog.trailingFailures (log ++ [(path, .error message)]) = log.trailingFailures + 1 := by
  simp [RequestLog.trailingFailures, succeeded, Except.isOk, Except.toBool]

theorem trailing_clean (clean : log.countP (fun entry => !succeeded entry) = 0) :
    log.trailingFailures = 0 := by
  rw [RequestLog.trailingFailures, List.length_eq_zero_iff, List.eq_nil_iff_forall_not_mem]
  intro entry member
  have listed := List.mem_reverse.mp ((List.takeWhile_subset _) member)
  have lost : (!succeeded entry) = true := @List.mem_takeWhile_imp _ _ _ entry member
  exact List.countP_eq_zero.mp clean entry listed lost

theorem firstFailure_before (reached : log.length = before.length) :
    log.firstFailure (before ++ rest) = log.firstFailure before := by
  have zipped : (before ++ rest).zip log = before.zip log := by
    have split := @List.zip_append _ _ before rest log [] reached.symm
    simpa using split
  unfold RequestLog.firstFailure
  rw [zipped]

theorem firstFailure_snoc (reached : log.length = before.length) :
    RequestLog.firstFailure (before ++ name :: rest) (log ++ [(path, outcome)]) =
      (log.firstFailure (before ++ name :: rest)).or (failureText name outcome) := by
  rw [firstFailure_before reached, RequestLog.firstFailure, List.zip_append reached.symm,
    List.findSome?_append]
  cases outcome <;> simp [RequestLog.firstFailure, failureText]

/-- Nothing stops the batch at the next name, either. -/
theorem live_snoc (live : ∀ i < log.length, cancelled i = false ∧
      RequestLog.trailingFailures (log.take i) < maxConsecutiveFailures)
    (going : cancelled log.length = false) (few : log.trailingFailures < maxConsecutiveFailures)
    (entry : Str × Outcome) (i : Nat) (early : i < (log ++ [entry]).length) :
    cancelled i = false ∧
      RequestLog.trailingFailures ((log ++ [entry]).take i) < maxConsecutiveFailures := by
  rw [List.length_append, List.length_singleton, Nat.lt_succ_iff] at early
  rw [List.take_append_of_le_length early]
  obtain earlier | rfl := Nat.lt_or_eq_of_le early
  · exact live i earlier
  · exact ⟨going, by rwa [List.take_length]⟩

theorem sent_snoc (sent : log.map Prod.fst = ((before ++ name :: rest).take log.length).map deletePath)
    (reached : log.length = before.length) :
    (log ++ [(deletePath name, outcome)]).map Prod.fst =
      ((before ++ name :: rest).take (log ++ [(deletePath name, outcome)]).length).map deletePath := by
  rw [List.map_append, sent, List.length_append, reached]
  simp [List.take_append]

theorem counts_ok (counts : Counts deletePath cancelled (before ++ name :: rest) log batch)
    (reached : log.length = before.length) (going : cancelled log.length = false)
    (few : log.trailingFailures < maxConsecutiveFailures) :
    Counts deletePath cancelled (before ++ name :: rest) (log ++ [(deletePath name, .ok ())])
      batch.deleted where
  sent := sent_snoc counts.sent reached
  success := by
    simp [DeleteBatch.deleted, counts.success, succeeded, Except.isOk, Except.toBool]
  failed := by
    simp [DeleteBatch.deleted, counts.failed, succeeded, Except.isOk, Except.toBool]
  firstError := by
    rw [firstFailure_snoc reached, ← counts.firstError, DeleteBatch.deleted, failureText,
      Option.or_none]
  live := live_snoc counts.live going few _

theorem counts_error (counts : Counts deletePath cancelled (before ++ name :: rest) log batch)
    (reached : log.length = before.length) (going : cancelled log.length = false)
    (few : log.trailingFailures < maxConsecutiveFailures) :
    Counts deletePath cancelled (before ++ name :: rest) (log ++ [(deletePath name, .error message)])
      (batch.failedOn name message) where
  sent := sent_snoc counts.sent reached
  success := by
    simp [DeleteBatch.failedOn, counts.success, succeeded, Except.isOk, Except.toBool]
  failed := by
    simp [DeleteBatch.failedOn, counts.failed, succeeded, Except.isOk, Except.toBool]
  firstError := by
    rw [firstFailure_snoc reached, ← counts.firstError, DeleteBatch.failedOn, failureText]
  live := live_snoc counts.live going few _

/-- Whatever becomes of the requests, the counters tell it, and the batch ends when it has to. -/
theorem deleteNames_ends (counts : Counts deletePath cancelled (before ++ rest) log batch)
    (reached : log.length = before.length) (few : log.trailingFailures < maxConsecutiveFailures)
    (row : batch.consecutiveFailures = log.trailingFailures) :
    (deleteNames deletePath cancelled log.length rest batch).ends RequestLog.record
      (fun final ended => Counts deletePath cancelled (before ++ rest) final ended.1 ∧
        Ended cancelled (before ++ rest) final ended.2) log := by
  induction rest generalizing before log batch with
  | nil =>
      refine ⟨counts, ?_, fun _ => by rw [List.append_nil, reached]⟩
      rw [if_neg (Nat.not_le.mpr few)]
  | cons name rest ih =>
      unfold deleteNames
      split
      · next stopped =>
          refine ⟨counts, ?_, fun done => by cases done⟩
          rw [if_neg (Nat.not_le.mpr few), if_pos stopped]
      · next going =>
          replace going := Bool.not_eq_true _ ▸ going
          have split : before ++ name :: rest = (before ++ [name]) ++ rest := by simp
          intro outcome
          cases outcome with
          | ok value =>
              have further := counts_ok counts reached going few
              rw [split] at further ⊢
              have onward := ih further (by simp [reached]) (by rw [trailing_ok]; decide)
                (by rw [trailing_ok]; rfl)
              rwa [List.length_append, List.length_singleton] at onward
          | error message =>
              have further := @counts_error _ _ _ _ _ _ _ message counts reached going few
              have longer : (batch.failedOn name message).consecutiveFailures =
                  RequestLog.trailingFailures (log ++ [(deletePath name, .error message)]) := by
                rw [trailing_error, DeleteBatch.failedOn, row]
              dsimp only
              split_ifs with enough
              · rw [longer] at enough
                exact ⟨further, (if_pos enough).symm, fun done => by cases done⟩
              · rw [longer] at enough
                rw [split] at further ⊢
                have onward := ih further (by simp [reached]) (Nat.not_le.mp enough) longer
                rwa [List.length_append, List.length_singleton] at onward

theorem notice_green {total : Nat} {ending : Ending} :
    (∃ message, batch.notice total ending = some ⟨.green, message⟩) ↔
      ending = .finished ∧ batch.failed = 0 ∧ 0 < batch.success := by
  cases ending with
  | aborted => simp [DeleteBatch.notice]
  | cancelled => simp [DeleteBatch.notice]
  | finished =>
      simp only [DeleteBatch.notice, true_and]
      split
      · next all => exact ⟨fun ⟨_, same⟩ => by simp at same, fun clean => absurd clean.1 all.1.ne'⟩
      · split
        · next some => exact ⟨fun ⟨_, same⟩ => by simp at same, fun clean => absurd clean.1 some.ne'⟩
        · next clean =>
            split
            · next done => exact ⟨fun _ => ⟨Nat.eq_zero_of_not_pos clean, done⟩, fun _ => ⟨_, rfl⟩⟩
            · next idle => exact ⟨fun ⟨_, same⟩ => by simp at same, fun held => absurd held.2 idle⟩

theorem notice_some {total : Nat} {ending : Ending}
    (some : ending = .finished → 0 < batch.success + batch.failed) :
    batch.notice total ending ≠ none := by
  cases ending with
  | aborted => simp [DeleteBatch.notice]
  | cancelled => simp [DeleteBatch.notice]
  | finished =>
      have made := some rfl
      simp only [DeleteBatch.notice]
      split
      · exact Option.some_ne_none _
      · split
        · exact Option.some_ne_none _
        · split
          · exact Option.some_ne_none _
          · omega

theorem counts_start (names : List Str) : Counts deletePath cancelled names [] .start :=
  ⟨rfl, rfl, rfl, by simp [DeleteBatch.start, RequestLog.firstFailure], by simp⟩

/-- Every request has succeeded or failed. -/
theorem counts_total (counts : Counts deletePath cancelled names log batch) :
    batch.success + batch.failed = log.length := by
  rw [counts.success, counts.failed, List.length_eq_countP_add_countP succeeded]
  simp

theorem succeeded_iff {entry : Str × Outcome} : succeeded entry = true ↔ entry.2 = .ok () := by
  obtain ⟨path, outcome⟩ := entry
  cases outcome <;> simp [succeeded, Except.isOk, Except.toBool]

/-- The log of a batch in which every request has succeeded. -/
theorem log_clean (counts : Counts deletePath cancelled names log batch)
    (whole : log.length = names.length) (clean : batch.failed = 0) :
    log = names.map fun name => (deletePath name, .ok ()) := by
  have sent := counts.sent
  rw [whole, List.take_length] at sent
  have good : log.map Prod.snd = log.map fun _ => Except.ok () := by
    refine List.map_congr_left fun entry member => succeeded_iff.mp ?_
    have none := List.countP_eq_zero.mp (counts.failed.symm.trans clean) entry member
    simpa using none
  rw [List.map_const', whole, ← List.map_const'] at good
  rw [List.zip_of_prod sent good, List.zip_map']

theorem counts_within (counts : Counts deletePath cancelled names log batch) :
    log.length ≤ names.length := by
  have lengths := congrArg List.length counts.sent
  rw [List.length_map, List.length_map, List.length_take] at lengths
  omega

theorem deletedNames_sublist (within : log.length ≤ names.length) :
    (deletedNames names log).Sublist names := by
  refine (List.filter_sublist.map Prod.fst).trans ?_
  have cut : names.zip log = (names.take log.length).zip log := by
    have split := @List.zip_append _ _ (names.take log.length) (names.drop log.length) log []
      (by rw [List.length_take]; omega)
    rwa [List.take_append_drop, List.append_nil, List.zip_nil_right, List.append_nil] at split
  rw [cut, List.map_fst_zip (by rw [List.length_take]; omega)]
  exact List.take_sublist _ _

theorem deletedNames_length (counts : Counts deletePath cancelled names log batch) :
    (deletedNames names log).length = batch.success := by
  have logged := List.countP_map (p := succeeded) (f := Prod.snd) (l := names.zip log)
  rw [List.map_snd_zip (counts_within counts)] at logged
  rw [counts.success, logged, deletedNames, List.length_map, ← List.countP_eq_length_filter]
  rfl

/-- A name is deleted by a request of its own. -/
theorem deletedNames_sent (counts : Counts deletePath cancelled names log batch)
    (deleted : name ∈ deletedNames names log) : (deletePath name, .ok ()) ∈ log := by
  obtain ⟨⟨same, path, outcome⟩, met, rfl⟩ := List.mem_map.mp deleted
  obtain ⟨zipped, good⟩ := List.mem_filter.mp met
  obtain ⟨i, found⟩ := List.mem_iff_getElem?.mp zipped
  obtain ⟨named, logged⟩ := List.getElem?_zip_eq_some.mp found
  have sent := congrArg (·[i]?) counts.sent
  have early : i < log.length := (List.getElem?_eq_some_iff.mp logged).1
  simp only [List.getElem?_map, logged, List.getElem?_take_of_lt early, named,
    Option.map_some, Option.some.injEq] at sent
  obtain rfl : outcome = .ok () := succeeded_iff.mp good
  exact sent ▸ List.mem_of_getElem? logged

theorem deletedNames_all :
    deletedNames names (names.map fun name => (deletePath name, .ok ())) = names := by
  have good : ∀ met ∈ names.zip (names.map fun name => (deletePath name, Except.ok ())),
      succeeded met.2 = true := by
    rintro ⟨name, entry⟩ met
    obtain ⟨other, -, rfl⟩ := List.mem_map.mp (List.of_mem_zip met).2
    rfl
  rw [deletedNames, List.filter_eq_self.mpr good, List.map_fst_zip (by simp)]

end Batches

section Told

variable (deletePath : Str → Str) (cancelled : Nat → Bool)

/-- A notice with the counters behind it. -/
structure Summary (names : List Str) (log : RequestLog) (notice : Option Notice)
    (batch : DeleteBatch) (ending : Ending) : Prop where
  counts : Counts deletePath (clicked cancelled names) names log batch
  ended : Ended (clicked cancelled names) names log ending
  notice : notice = batch.notice names.length ending

/-- What the notice of a batch is worth. -/
structure Told (names : List Str) (log : RequestLog) (notice : Option Notice) : Prop where
  shown : notice = none ↔ names = []
  sent : log.map Prod.fst = (names.take log.length).map deletePath
  clean : (∃ message, notice = some ⟨.green, message⟩) ↔
    names ≠ [] ∧ log = (names.map fun name => (deletePath name, .ok ())) ∧
      clicked cancelled names names.length = false
  words : names ≠ [] → ∃ batch ending, Summary deletePath cancelled names log notice batch ending

variable {deletePath cancelled} {names : List Str} {log : RequestLog}

theorem clean_ended {batch : DeleteBatch} {ending : Ending}
    (counts : Counts deletePath (clicked cancelled names) names log batch)
    (ended : Ended (clicked cancelled names) names log ending) :
    (ending = .finished ∧ batch.failed = 0 ∧ 0 < batch.success) ↔
      names ≠ [] ∧ log = (names.map fun name => (deletePath name, .ok ())) ∧
        clicked cancelled names names.length = false := by
  constructor
  · rintro ⟨rfl, clean, done⟩
    have whole := ended.whole rfl
    refine ⟨?_, log_clean counts whole clean, ?_⟩
    · rintro rfl
      have total := counts_total counts
      rw [whole, List.length_nil] at total
      omega
    · have reason := ended.reason
      split_ifs at reason with hopeless stopped
      rw [whole] at stopped
      exact Bool.not_eq_true _ ▸ stopped
  · rintro ⟨some, rfl, going⟩
    have clean : batch.failed = 0 := by
      rw [counts.failed, List.countP_eq_zero]
      simp [succeeded, Except.isOk, Except.toBool]
    have total := counts_total counts
    rw [clean, Nat.add_zero, List.length_map] at total
    refine ⟨?_, clean, total ▸ List.length_pos_of_ne_nil some⟩
    rw [ended.reason, trailing_clean (counts.failed ▸ clean), List.length_map, going]
    rfl

theorem confirmDelete_ends (deletePath : Str → Str) (cancelled : Nat → Bool) (names : List Str) :
    (confirmDelete deletePath cancelled names).ends RequestLog.record
      (fun log notice => names = [] ∧ log = [] ∧ notice = none ∨
        names ≠ [] ∧ ∃ batch ending, Summary deletePath cancelled names log notice batch ending) [] := by
  unfold confirmDelete
  split
  · next empty => exact .inl ⟨List.isEmpty_iff.mp empty, rfl, rfl⟩
  · next some =>
      refine Program.ends_bind (@deleteNames_ends deletePath (clicked cancelled names) [] names []
        .start (counts_start names) rfl (by decide) rfl) ?_
      rintro log ⟨batch, ending⟩ ⟨counts, ended⟩
      exact .inr ⟨fun none => some (List.isEmpty_iff.mpr none), batch, ending, counts, ended, rfl⟩

/-- Whatever becomes of the requests and whenever Cancel is clicked: the requests are those for
the names in their order; the counters and the first error are those of the requests; the batch
goes on until all names are through, Cancel is clicked or ten requests in a row have failed; and
the notice is green when every name has been deleted, and only then. -/
theorem bulk_delete_tells (deletePath : Str → Str) (cancelled : Nat → Bool) (names : List Str) :
    (confirmDelete deletePath cancelled names).ends RequestLog.record
      (Told deletePath cancelled names) [] := by
  refine Program.ends_mono (confirmDelete_ends deletePath cancelled names) ?_
  rintro log notice (⟨rfl, rfl, rfl⟩ | ⟨filled, batch, ending, counts, ended, rfl⟩)
  · exact ⟨by simp, rfl, by simp, fun some => absurd rfl some⟩
  · refine ⟨⟨fun none => absurd none (notice_some fun done => ?_), fun none => absurd none filled⟩,
      counts.sent, notice_green.trans (clean_ended counts ended),
      fun _ => ⟨batch, ending, counts, ended, rfl⟩⟩
    rw [counts_total counts, ended.whole done]
    exact List.length_pos_of_ne_nil filled

end Told

end S3Manager.Ui
