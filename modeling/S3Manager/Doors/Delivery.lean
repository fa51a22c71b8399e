import S3Manager.Doors.WriteGuards
import S3Manager.Library.Inline
import S3Manager.Storage.Interference

/-! Requests of the web frontend on their way to the routes and back, while other clients use
the store. A request or its answer may be lost; the frontend then knows no more than that. -/

set_option autoImplicit false

namespace S3Manager.Doors

open Python Utils Access Storage Library

section Model

variable {Failure α : Type}

/-- How a request gets to its route and the answer back. -/
inductive Delivery (Failure : Type) where
  | answered
  | lost (failure : Failure)
  | unheard (failure : Failure)

/-- The route serves the request, if it arrives, and the frontend learns whether it succeeded. -/
def Delivery.carry (describe : PyError → Failure) (program : S3Program α) :
    Delivery Failure → Program Effect.Reply (Except Failure Unit)
  | .answered => Program.bind program fun
      | .ok _ => .pure (.ok ())
      | .error exc => .pure (.error (describe exc))
  | .lost failure => .pure (.error failure)
  | .unheard failure => Program.bind program fun _ => .pure (.error failure)

end Model

section Rules

variable {Failure α : Type} {conventions : Conventions} {describe : PyError → Failure}
  {program : S3Program α} {delivery : Delivery Failure} {world : World}
  {pre kept : Store → Prop} {post : Except Failure Unit → Store → Prop}

theorem carry_relies (stable : Stable kept pre) (posts : ∀ outcome, Stable kept (post outcome))
    (idle : ∀ failure store, pre store → post (.error failure) store)
    (holds : Triple conventions kept pre program
      (fun _ store => ∀ outcome, post outcome store)
      fun store => ∀ failure, post (.error failure) store)
    (start : pre world.store) :
    (delivery.carry describe program).Relies (handle conventions) (Keeping kept)
      (fun outcome later => post outcome later.store) world := by
  cases delivery with
  | lost failure => exact fun later moved => idle failure _ (stable _ _ moved start)
  | answered =>
      refine Program.relies_bind keeping_refl (holds world start) fun result later met => ?_
      cases result with
      | ok answer => exact fun final moved => posts _ _ _ moved (met (.ok ()))
      | error exc => exact fun final moved => posts _ _ _ moved (met (describe exc))
  | unheard failure =>
      refine Program.relies_bind keeping_refl (holds world start) fun result later met => ?_
      cases result with
      | ok answer => exact fun final moved => posts _ _ _ moved (met (.error failure))
      | error exc => exact fun final moved => posts _ _ _ moved (met failure)

/-- What an operation never spoils. -/
theorem carry_keeps (holds : Triple conventions kept kept program (fun _ => kept) kept)
    (start : kept world.store) :
    (delivery.carry describe program).Relies (handle conventions) (Keeping kept)
      (fun _ later => kept later.store) world :=
  carry_relies stable_kept (fun _ => stable_kept) (fun _ _ here => here)
    (triple_post (triple_failed holds fun _ here _ => here) fun _ _ here _ => here) start

/-- What an operation has brought about when it succeeds. -/
theorem carry_brings (holds : Triple conventions kept (fun _ => True) program (fun _ => kept)
      fun _ => True) :
    (delivery.carry describe program).Relies (handle conventions) (Keeping kept)
      (fun outcome later => outcome = .ok () → kept later.store) world := by
  refine @carry_relies Failure α conventions describe program delivery world (fun _ => True) kept
    (fun outcome store => outcome = .ok () → kept store) stable_true ?_ ?_ ?_ trivial
  · exact fun outcome store later keeps here done => keeps (here done)
  · exact fun _ _ _ done => by cases done
  · exact triple_post (triple_failed holds fun _ _ _ done => by cases done) fun _ _ here _ _ => here

end Rules

section Others

variable {Index Client α : Type} [DecidableEq Client] {unicode : Unicode} {conventions : Conventions}
  {kept : Index → Store → Prop}

/-- Every fact about the store, while others keep all of them. -/
def KeptIn (kept : Index → Store → Prop) (index : Index) (world : World) : Prop :=
  kept index world.store

/-- What a program promises while nobody spoils these facts, it keeps beside clients none of
whose calls can spoil one. -/
theorem beside_spared {program : Program Effect.Reply α} {post : α → World → Prop} {value : α}
    {sessions : Client → ClientSession} {schedule : List (Option Client)} {world : World}
    (spares : ∀ client index, ((sessions client).program unicode).Confined (handle conventions) Eq
      fun first later => kept index first.store → kept index later.store)
    (relies : program.Relies (handle conventions) (Program.Sparing (KeptIn kept)) post world)
    (ended : ((Pool.beside world program fun client => (sessions client).program unicode).run
      (handle conventions) schedule).programs none = .pure value) :
    post value ((Pool.beside world program fun client =>
      (sessions client).program unicode).run (handle conventions) schedule).world := by
  have interferes : (Pool.beside world program fun client =>
      (sessions client).program unicode).Interferes (handle conventions)
        (Program.Sparing (KeptIn kept)) none schedule := by
    refine Pool.interferes_of_confined schedule Program.sparing_refl fun member other => ?_
    cases member with
    | none => exact absurd rfl other
    | some client => exact Program.confined_forall (spares client)
  have promised :=
    Pool.run_relies Program.sparing_refl Program.sparing_trans schedule relies interferes
  rw [ended] at promised
  exact promised _ (Program.sparing_refl _)

end Others

end S3Manager.Doors
