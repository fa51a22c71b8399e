import S3Manager.Doors.WriteGuards
import S3Manager.Storage.SettledDelete

/-! What a delete through either door has settled when it returns, while other clients of both
doors go on. -/

set_option autoImplicit false

namespace S3Manager.Doors

open Python Utils Access Storage Library

section Deletes

variable {unicode : Unicode} {conventions : Conventions} {config : Dict} {user : UserDict}
  {bucket key : Str}

theorem triple_deletes {operation : StorageOperation} (deletes : operation.Deletes unicode bucket key) :
    Triple conventions (Gone bucket key) (fun _ => True) (operation.program unicode config user)
      (fun _ => Gone bucket key) fun _ => True := by
  cases operation with
  | mcpDeleteFile pages token role name path =>
      obtain ⟨rfl, targeted⟩ := deletes
      exact triple_check stable_true fun _ _ => triple_deleteObjectForRole targeted
  | mcpCopyObject pages token role sourceBucket sourcePath destBucket destPath deleteSource =>
      obtain ⟨rfl, rfl, targeted⟩ := deletes
      refine triple_check stable_true fun _ _ => triple_check stable_true fun _ _ => ?_
      refine triple_bind stable_true (triple_true _) fun _ => ?_
      exact triple_bind stable_true (triple_deleteObjectForRole targeted) fun _ =>
        triple_failed (triple_pure stable_kept fun _ gone => gone) fun _ _ => trivial
  | webDeleteFile pages role bucketName path disableDeletionEnv =>
      obtain ⟨target, sanitized, rfl, targeted⟩ := deletes
      simp only [StorageOperation.program, Web.deleteFile]
      split
      · exact triple_failed (triple_raise stable_true) fun _ _ => trivial
      · refine triple_check stable_true fun checked same => ?_
        obtain rfl := Except.ok.inj (sanitized.symm.trans same)
        split
        · exact triple_ofResult stable_true fun _ same => by cases same
        · exact triple_deleteObjectForRole targeted
  | _ => exact deletes.elim

theorem gone_of_changesOnly {erase : Prop} {held later : Store}
    (changes : ChangesOnly bucket key False erase held later) (gone : Gone bucket key held) :
    Gone bucket key later := by
  by_contra there
  obtain ⟨stored, found⟩ := Option.ne_none_iff_exists'.mp there
  refine changes.changed stored found fun same => ?_
  rw [show held.get? bucket key = none from gone] at same
  cases same

variable {Client : Type} [DecidableEq Client]

/-- A delete has returned normally, however its requests and retries interleaved with the calls
of other clients. An object of its target is gone from then on, unless one of the others
may put it there. -/
theorem deletes_settle {operation : StorageOperation} {answer : operation.Answer}
    (deletes : operation.Deletes unicode bucket key) (sessions : Client → ClientSession)
    (others : ∀ client, ¬ (sessions client).Has (DoorCall.MayStore unicode bucket key))
    (schedule : List (Option Client)) (world : World)
    (ended : ((Pool.beside world (operation.program unicode config user) fun client =>
      (sessions client).program unicode).run (handle conventions) schedule).programs none =
        .pure (.ok answer)) :
    ((Pool.beside world (operation.program unicode config user) fun client =>
      (sessions client).program unicode).run (handle conventions) schedule).world.store.get?
        bucket key = none := by
  refine beside_ends (triple_deletes deletes) trivial ?_ ended
  refine Pool.interferes_of_confined schedule keeping_refl fun member other => ?_
  cases member with
  | none => exact absurd rfl other
  | some client =>
      exact Program.confined_weaken (confined_session_leave (others client)
        fun _ => trivial) fun held later changes gone => gone_of_changesOnly changes gone

/-- A delete of a folder beside a client that uploads another file into it. -/
def sweptPool : Pool Effect.Reply World fun member : Option Unit =>
    member.elim (Result DeleteResult) fun _ => List Answered :=
  Pool.beside ⟨(standStore [1]).put (lit "data") (lit "stand-a/y") [2] none, fun _ => none⟩
    (sweep.program .ascii standConfig standUser) fun _ => standSession.program .ascii

theorem swept_settles :
    (sweptPool.run (handle .plain) [none, some (), none, some (), none]).world.store.get?
      (lit "data") (lit "stand-a/y") = none := by
  have ended : ∃ answer, (sweptPool.run (handle .plain)
      [none, some (), none, some (), none]).programs none = Program.pure (.ok answer) := ⟨_, rfl⟩
  obtain ⟨answer, ended⟩ := ended
  have deletes : sweep.Deletes .ascii (lit "data") (lit "stand-a/y") := ⟨rfl, lit "y", rfl⟩
  refine deletes_settle deletes (fun _ : Unit => standSession) (fun _ may => ?_) _ _ ended
  obtain may | ⟨_, done⟩ := may
  · exact absurd may.names.2 (by decide)
  · exact done

end Deletes

end S3Manager.Doors
