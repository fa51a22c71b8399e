import S3Manager.Doors.Delivery
import S3Manager.Doors.SettledDeletes
import S3Manager.Ui.BulkDelete
import S3Manager.Ui.FileBrowser

/-! A bulk delete of the file browser, from its first request to its notice, while other clients
of both doors go on: what the notice calls deleted is gone. -/

set_option autoImplicit false

namespace S3Manager.Doors

open Python Utils Access Storage Library Ui

section Model

/-- What the server has when a delete arrives. -/
structure DeleteVisit where
  config : Dict
  user : UserDict
  pages : Nat
  disableDeletionEnv : Bool
  delivery : Delivery Str

variable (unicode : Unicode) (describe : PyError → Str) (role : Option Str) (bucketName : Str)

def DeleteVisit.operation (visit : DeleteVisit) (path : Str) : StorageOperation :=
  .webDeleteFile visit.pages role bucketName path visit.disableDeletionEnv

/-- `deleteFile`: the route, and what the browser makes of its answer. -/
def serveDelete (visits : Nat → DeleteVisit) (served : Nat) (path : Str) :
    Program Effect.Reply Outcome :=
  let visit := visits served
  visit.delivery.carry describe
    ((visit.operation role bucketName path).program unicode visit.config visit.user)

/-- The bulk delete of a screen. -/
def deleteBatch (visits : Nat → DeleteVisit) (screen : Screen) (cancelled : Nat → Bool)
    (names : List Str) : Program Effect.Reply (Option Notice) :=
  (confirmDelete screen.deletePath cancelled names).inline
    (serveDelete unicode describe role bucketName visits) 0

/-- The delete route is there to delete this object when it is asked for the path. -/
def Aimed (path : Str) (place : Str × Str) : Prop :=
  ∃ target, Web.sanitizeTarget unicode bucketName path = .ok target ∧ target.1 = place.1 ∧
    Targeted (Web.deletePath path target.2) place.2

/-- As many names as the notice calls deleted have nothing left below their paths, beyond what
`safe` leaves open; and when the notice is green, these are all names. -/
def Settled (screen : Screen) (names : List Str) (safe : Str × Str → Prop) (notice : Option Notice)
    (store : Store) : Prop :=
  ∃ deleted : List Str, deleted.Sublist names ∧
    (∀ name ∈ deleted, ∀ bucket key, Aimed unicode bucketName (screen.deletePath name) (bucket, key) →
      safe (bucket, key) → store.get? bucket key = none) ∧
    (names ≠ [] → ∃ batch ending, notice = DeleteBatch.notice batch names.length ending ∧
      batch.success = deleted.length) ∧
    ((∃ message, notice = some ⟨.green, message⟩) → deleted = names)

end Model

section Serving

variable {unicode : Unicode} {conventions : Conventions} {describe : PyError → Str}
  {role : Option Str} {bucketName path bucket key : Str} {visits : Nat → DeleteVisit} {served : Nat}
  {world : World}

/-- No delete puts an object back. -/
theorem serveDelete_keeps (gone : Gone bucket key world.store) :
    (serveDelete unicode describe role bucketName visits served path).Relies (handle conventions)
      (Keeping (Gone bucket key)) (fun _ later => Gone bucket key later.store) world := by
  refine carry_keeps (triple_of_makes stable_kept (fun request store guarded here => ?_)
    (makes_guarded _)) gone
  exact gone_of_changesOnly
    (answer_changesOnly (fun puts => ((guarded bucket key).1 puts).2) fun takes => takes) here

theorem serveDelete_brings (aimed : Aimed unicode bucketName path (bucket, key)) :
    (serveDelete unicode describe role bucketName visits served path).Relies (handle conventions)
      (Keeping (Gone bucket key)) (fun outcome later => outcome = .ok () → Gone bucket key later.store)
      world :=
  carry_brings (triple_deletes aimed)

end Serving

section Batches

variable {unicode : Unicode} {conventions : Conventions} {describe : PyError → Str}
  {role : Option Str} {bucketName : Str} {visits : Nat → DeleteVisit} {screen : Screen}
  {cancelled : Nat → Bool} {names : List Str} {notice : Option Notice} {safe : Str × Str → Prop}

/-- A request for a path of this object has succeeded. -/
def DeletedIn (unicode : Unicode) (bucketName : Str) (safe : Str × Str → Prop) (log : RequestLog)
    (place : {place // safe place}) : Prop :=
  ∃ path, (path, Except.ok ()) ∈ log ∧ Aimed unicode bucketName path place.1

theorem settled_of_gone {log : RequestLog} {store : Store} {batch : DeleteBatch} {ending : Ending}
    (summary : Summary screen.deletePath cancelled names log notice batch ending)
    (gone : ∀ place, DeletedIn unicode bucketName safe log place →
      Gone place.1.1 place.1.2 store) :
    Settled unicode bucketName screen names safe notice store := by
  obtain ⟨counts, ended, rfl⟩ := summary
  refine ⟨deletedNames names log, deletedNames_sublist (counts_within counts), ?_,
    fun _ => ⟨batch, ending, rfl, (deletedNames_length counts).symm⟩, fun green => ?_⟩
  · intro name deleted bucket key aimed spared
    exact gone ⟨(bucket, key), spared⟩ ⟨_, deletedNames_sent counts deleted, aimed⟩
  · obtain ⟨-, whole, -⟩ := (clean_ended counts ended).mp (notice_green.mp green)
    rw [whole, deletedNames_all]

/-- The objects that nobody else stores. -/
def goneAt (safe : Str × Str → Prop) (place : {place // safe place}) (store : Store) : Prop :=
  Gone place.1.1 place.1.2 store

/-- The batch as a whole, whoever interferes. -/
theorem deleteBatch_relies (world : World) :
    (deleteBatch unicode describe role bucketName visits screen cancelled names).Relies
      (handle conventions) (Program.Sparing (KeptIn (goneAt safe)))
      (fun notice later => Settled unicode bucketName screen names safe notice later.store) world := by
  have gathers (path : Str) (outcome : Outcome) (log : RequestLog) (place : {place // safe place})
      (done : DeletedIn unicode bucketName safe (RequestLog.record path outcome log) place) :
      DeletedIn unicode bucketName safe log place ∨
        (outcome = .ok () ∧ Aimed unicode bucketName path place.1) := by
    obtain ⟨other, listed, aimed⟩ := done
    obtain earlier | last := List.mem_append.mp listed
    · exact .inl ⟨other, earlier, aimed⟩
    · obtain ⟨rfl, rfl⟩ := Prod.mk.inj (List.mem_singleton.mp last)
      exact .inr ⟨rfl, aimed⟩
  have keeps (served : Nat) (path : Str) (place : {place // safe place}) (world : World) (_ : True)
      (gone : KeptIn (goneAt safe) place world) :
      (serveDelete unicode describe role bucketName visits served path).Relies (handle conventions)
        (fun first later => KeptIn (goneAt safe) place first → KeptIn (goneAt safe) place later)
        (fun _ later => KeptIn (goneAt safe) place later) world :=
    serveDelete_keeps gone
  have brings (served : Nat) (path : Str) (place : {place // safe place}) (world : World)
      (_ : True) :
      (serveDelete unicode describe role bucketName visits served path).Relies (handle conventions)
        (fun first later => KeptIn (goneAt safe) place first → KeptIn (goneAt safe) place later)
        (fun outcome later => outcome = .ok () ∧ Aimed unicode bucketName path place.1 →
          KeptIn (goneAt safe) place later) world := by
    by_cases aimed : Aimed unicode bucketName path place.1
    · exact Program.relies_mono (serveDelete_brings aimed) fun _ _ gone done => gone done.1
    · exact Program.relies_always fun _ _ done => absurd done.2 aimed
  refine Program.relies_mono (Program.relies_gather gathers keeps brings (Program.asks_any _)
    (confirmDelete_ends screen.deletePath cancelled names) ?_) ?_
  · rintro place ⟨path, listed, -⟩
    cases listed
  · rintro notice later ⟨log, ⟨rfl, -, rfl⟩ | ⟨-, batch, ending, summary⟩, gone⟩
    · exact ⟨[], .slnil, by simp, fun some => absurd rfl some, fun _ => rfl⟩
    · exact settled_of_gone summary gone

variable {Client : Type} [DecidableEq Client]

/-- None of the other clients' calls may store the object. -/
def Unstored (unicode : Unicode) (sessions : Client → ClientSession) (place : Str × Str) : Prop :=
  ∀ client, ¬ (sessions client).Has (DoorCall.MayStore unicode place.1 place.2)

/-- A bulk delete has shown its notice, whatever requests or answers were lost, whenever Cancel
was clicked, and however its requests interleaved with those of other clients: what it calls
deleted is gone, but for objects that the calls of others may have put back. -/
theorem bulk_delete_settles (sessions : Client → ClientSession)
    (schedule : List (Option Client)) (world : World)
    (ended : ((Pool.beside world
      (deleteBatch unicode describe role bucketName visits screen cancelled names) fun client =>
        (sessions client).program unicode).run (handle conventions) schedule).programs none =
          .pure notice) :
    Settled unicode bucketName screen names (Unstored unicode sessions) notice
      ((Pool.beside world
        (deleteBatch unicode describe role bucketName visits screen cancelled names) fun client =>
          (sessions client).program unicode).run (handle conventions) schedule).world.store := by
  refine beside_spared (fun client place => ?_) (deleteBatch_relies world) ended
  exact Program.confined_weaken (confined_session_leave (place.2 client)
    fun _ => trivial) fun held later changes => gone_of_changesOnly changes

/-- The folder of the stand, as it is open in the browser. -/
def standScreen : Screen where
  pathFromUrl := lit "stand-a"
  pages := []

def standVisit : DeleteVisit where
  config := standConfig
  user := standUser
  pages := 1
  disableDeletionEnv := false
  delivery := .answered

/-- A delete of one file, beside a client that uploads another file into its folder. -/
def pickedPool : Pool Effect.Reply World fun member : Option Unit =>
    member.elim (Option Notice) fun _ => List Answered :=
  Pool.beside ⟨(standStore [1]).put (lit "data") (lit "stand-a/y") [2] none, fun _ => none⟩
    (deleteBatch .ascii (fun _ => []) (some (lit "stand")) (lit "data") (fun _ => standVisit)
      standScreen (fun _ => false) [lit "y"]) fun _ => standSession.program .ascii

theorem picked_settles :
    (pickedPool.run (handle .plain) [none, some (), none, some (), none, none]).world.store.get?
      (lit "data") (lit "stand-a/y") = none := by
  have ended : (pickedPool.run (handle .plain)
      [none, some (), none, some (), none, none]).programs none =
        Program.pure (some ⟨.green, lit "Deleted 1 item"⟩) := rfl
  obtain ⟨deleted, -, gone, -, all⟩ := bulk_delete_settles (fun _ : Unit => standSession)
    _ _ ended
  obtain rfl := all ⟨_, rfl⟩
  refine gone (lit "y") List.mem_cons_self _ _ ⟨(lit "data", lit "stand-a/y"), rfl, rfl, rfl⟩
    fun _ may => ?_
  obtain may | ⟨_, done⟩ := may
  · exact absurd may.names.2 (by decide)
  · exact done

end Batches

end S3Manager.Doors
