import Mathlib.Logic.Function.Basic
import S3Manager.Library.Transition

/-! `clientLoadInfinite.ts`: the drain that `loadAll` runs over the pages of a folder, and the
one cancel flag that all the drains of the hook share. `FileBrowser` stays mounted when the
folder changes, so a drain can outlive the folder it was started in. -/

set_option autoImplicit false

namespace S3Manager.Ui

open Library

variable {Folder : Type}

/-- A call of `loadAll` that waits for a page: the folder it was started in and the folder whose
page it waits for. Whether `stopLoadAll` was called since is recorded for the statements only. -/
structure Drain (Folder : Type) where
  started : Folder
  target : Folder
  stopped : Bool

/-- What the drains did: a further page was requested, by a drain that was or was not stopped
before, or the call resolved, when the folder it was started in had or had not a next page. -/
inductive DrainNote where
  | requested (stopped : Bool)
  | resolved (value : Bool) (more : Bool)

/-- `hasNextPage` and `isFetchingNextPage` are those of the last render, `more` is what the
listing of each folder says now. -/
structure LoadHook (Folder : Type) where
  bound : Folder
  more : Folder → Bool
  hasNextPage : Bool
  isFetchingNextPage : Bool
  cancelled : Bool
  drains : List (Drain Folder)
  log : List DrainNote

/-- A page arrives, or its request fails (`none`). The query can be refetched and rendered at
any time, and pages are also requested by `loadMore` (`other`). -/
inductive LoadAction (Folder : Type) where
  | loadAll
  | stopLoadAll
  | changeFolder (folder : Folder) (other : Bool)
  | arrives (index : Nat) (page : Option Bool)
  | refetched (folder : Folder) (more : Bool)
  | render (other : Bool)

namespace LoadHook

def stopLoadAll (hook : LoadHook Folder) : LoadHook Folder :=
  { hook with
    cancelled := true
    drains := hook.drains.map fun drain => { drain with stopped := true } }

def loadAll (hook : LoadHook Folder) : LoadHook Folder :=
  if !hook.hasNextPage then
    { hook with log := hook.log ++ [.resolved true (hook.more hook.bound)] }
  else if hook.isFetchingNextPage then
    { hook with log := hook.log ++ [.resolved false (hook.more hook.bound)] }
  else
    { hook with
      cancelled := false
      drains := hook.drains ++ [⟨hook.bound, hook.bound, false⟩] }

variable [DecidableEq Folder]

def render (hook : LoadHook Folder) (other : Bool) : LoadHook Folder :=
  { hook with
    hasNextPage := hook.more hook.bound
    isFetchingNextPage := other || hook.drains.any fun drain => drain.target = hook.bound }

/-- The render with the new folder, and the effect of `FileBrowser` that it cleans up. -/
def changeFolder (hook : LoadHook Folder) (folder : Folder) (other : Bool) : LoadHook Folder :=
  ({ hook with bound := folder }.render other).stopLoadAll

/-- The body of the loop of `loadAll` after its `await`. -/
def arrives (hook : LoadHook Folder) (index : Nat) (page : Option Bool) : LoadHook Folder :=
  match hook.drains[index]? with
  | none => hook
  | some drain =>
      match page with
      | none => { hook with drains := hook.drains.eraseIdx index }
      | some hasNextPage =>
          let more := Function.update hook.more drain.target hasNextPage
          if hasNextPage && !hook.cancelled then
            { hook with
              more
              drains := hook.drains.set index { drain with target := hook.bound }
              log := hook.log ++ [.requested drain.stopped] }
          else
            { hook with
              more
              drains := hook.drains.eraseIdx index
              log := hook.log ++ [.resolved (!hasNextPage) (more drain.started)] }

def after (hook : LoadHook Folder) : LoadAction Folder → LoadHook Folder
  | .loadAll => hook.loadAll
  | .stopLoadAll => hook.stopLoadAll
  | .changeFolder folder other => hook.changeFolder folder other
  | .arrives index page => hook.arrives index page
  | .refetched folder more => { hook with more := Function.update hook.more folder more }
  | .render other => hook.render other

def Step (hook : LoadHook Folder) (action : LoadAction Folder) (next : LoadHook Folder) : Prop :=
  next = hook.after action

end LoadHook

section Law

/-- No stopped drain requested a page, and only a folder without a next page resolved true. -/
def DrainNote.fine : DrainNote → Bool
  | .requested stopped => !stopped
  | .resolved value more => !value || !more

/-- At most one drain waits for a page, and all that the drains did is fine. -/
def LoadHook.Sound (hook : LoadHook Folder) : Prop :=
  hook.drains.length ≤ 1 ∧ ∀ note ∈ hook.log, note.fine = true

/-- Every drain waits for the folder it was started in. One that was stopped finds the flag
set, any other is in the folder that the hook is bound to. -/
def LoadHook.Settled (hook : LoadHook Folder) : Prop :=
  ∀ drain ∈ hook.drains, drain.target = drain.started ∧
    (if drain.stopped then hook.cancelled = true else drain.started = hook.bound)

/-- A call of `loadAll` that trusts the rendered end of the listing finds it still true, and one
that starts a drain finds no other drain waiting, whatever folder that one waits for. -/
def LoadHook.Careful (hook : LoadHook Folder) : LoadAction Folder → Prop
  | .loadAll =>
      if hook.hasNextPage then hook.isFetchingNextPage = false → hook.drains = []
      else hook.more hook.bound = false
  | _ => True

theorem sound_stopLoadAll (hook : LoadHook Folder) : hook.stopLoadAll.Sound ↔ hook.Sound := by
  unfold LoadHook.Sound LoadHook.stopLoadAll
  rw [List.length_map]

theorem settled_stopLoadAll {hook : LoadHook Folder}
    (waiting : ∀ drain ∈ hook.drains, drain.target = drain.started) :
    hook.stopLoadAll.Settled := by
  intro drain member
  obtain ⟨before, here, rfl⟩ := List.mem_map.mp member
  exact ⟨waiting before here, rfl⟩

theorem forall_fine_append {log : List DrainNote} {note : DrainNote}
    (fine : ∀ note ∈ log, note.fine = true) :
    (∀ later ∈ log ++ [note], later.fine = true) ↔ note.fine = true := by
  simp only [List.forall_mem_append, List.forall_mem_singleton, and_iff_right fine]

/-- Where all is well, a call of `loadAll` keeps it so exactly when it is careful. -/
theorem sound_loadAll_iff {hook : LoadHook Folder} (sound : hook.Sound) :
    hook.loadAll.Sound ↔ hook.Careful .loadAll := by
  obtain ⟨few, fine⟩ := sound
  unfold LoadHook.loadAll LoadHook.Careful
  cases more : hook.hasNextPage with
  | false =>
      simp only [Bool.not_false, if_true, LoadHook.Sound, forall_fine_append fine, and_iff_right few]
      simp [DrainNote.fine]
  | true =>
      cases fetching : hook.isFetchingNextPage with
      | true =>
          simp only [Bool.not_true, Bool.false_eq_true, if_false, if_true, LoadHook.Sound,
            forall_fine_append fine, and_iff_right few]
          simp [DrainNote.fine]
      | false =>
          simp only [Bool.not_true, Bool.false_eq_true, if_false, if_true, LoadHook.Sound,
            and_iff_left fine, List.length_append, List.length_singleton, forall_const]
          rw [← List.length_eq_zero_iff]
          omega

theorem settled_loadAll {hook : LoadHook Folder} (settled : hook.Settled)
    (sound : hook.loadAll.Sound) : hook.loadAll.Settled := by
  unfold LoadHook.loadAll at sound ⊢
  by_cases ended : (!hook.hasNextPage) = true
  · rw [if_pos ended]
    exact settled
  by_cases fetching : hook.isFetchingNextPage = true
  · rw [if_neg ended, if_pos fetching]
    exact settled
  rw [if_neg ended, if_neg fetching] at sound ⊢
  -- the flag is cleared, so the new drain must be the only one
  have alone : hook.drains = [] := by
    have few := sound.1
    simp only [List.length_append, List.length_singleton] at few
    exact List.length_eq_zero_iff.mp (by omega)
  intro drain member
  simp only [alone, List.nil_append, List.mem_singleton] at member
  subst member
  exact ⟨rfl, rfl⟩

/-- With one drain at most, the page that arrives is the one this drain waits for. -/
theorem drains_of_getElem? {hook : LoadHook Folder} (sound : hook.Sound) {index : Nat}
    {drain : Drain Folder} (found : hook.drains[index]? = some drain) :
    index = 0 ∧ hook.drains = [drain] := by
  have few := sound.1
  cases waiting : hook.drains with
  | nil => simp [waiting] at found
  | cons first others =>
      rw [waiting] at few found
      rw [List.length_cons] at few
      obtain rfl : others = [] := List.length_eq_zero_iff.mp (by omega)
      cases index with
      | zero => exact ⟨rfl, by rw [Option.some.inj found]⟩
      | succ index => simp at found

variable [DecidableEq Folder]

theorem arrives_sound {hook : LoadHook Folder} (sound : hook.Sound) (settled : hook.Settled)
    (index : Nat) (page : Option Bool) :
    (hook.arrives index page).Sound ∧ (hook.arrives index page).Settled := by
  unfold LoadHook.arrives
  cases found : hook.drains[index]? with
  | none => exact ⟨sound, settled⟩
  | some drain =>
  obtain ⟨rfl, only⟩ := drains_of_getElem? sound found
  obtain ⟨waits, flag⟩ := settled drain (by simp [only])
  cases page with
  | none => exact ⟨⟨by simp [only], sound.2⟩, by simp [LoadHook.Settled, only]⟩
  | some more =>
  dsimp only
  split
  · next goes =>
      -- the flag is not set, so this drain was not stopped and its folder is still shown
      obtain ⟨-, running⟩ := (Bool.and_eq_true _ _).mp goes
      have calm : hook.cancelled = false := by simpa using running
      cases stopped : drain.stopped with
      | true => simp [stopped, calm] at flag
      | false =>
          have here : drain.started = hook.bound := by simpa [stopped] using flag
          refine ⟨⟨by simp [only], (forall_fine_append sound.2).mpr rfl⟩, ?_⟩
          simp [LoadHook.Settled, only, here]
  · next ends =>
      refine ⟨⟨by simp [only], (forall_fine_append sound.2).mpr ?_⟩, by simp [LoadHook.Settled, only]⟩
      rw [waits, Function.update_self]
      cases more <;> rfl

theorem step_sound_iff {hook next : LoadHook Folder} {action : LoadAction Folder}
    (sound : hook.Sound) (settled : hook.Settled) (taken : hook.Step action next) :
    next.Sound ↔ hook.Careful action := by
  subst taken
  cases action with
  | loadAll => exact sound_loadAll_iff sound
  | stopLoadAll => exact iff_of_true ((sound_stopLoadAll hook).mpr sound) trivial
  | changeFolder folder other => exact iff_of_true ((sound_stopLoadAll _).mpr sound) trivial
  | arrives index page => exact iff_of_true (arrives_sound sound settled index page).1 trivial
  | refetched folder more => exact iff_of_true sound trivial
  | render other => exact iff_of_true sound trivial

theorem step_settled {hook next : LoadHook Folder} {action : LoadAction Folder}
    (sound : hook.Sound) (settled : hook.Settled) (taken : hook.Step action next)
    (after : next.Sound) : next.Settled := by
  subst taken
  cases action with
  | loadAll => exact settled_loadAll settled after
  | stopLoadAll => exact settled_stopLoadAll fun drain member => (settled drain member).1
  | changeFolder folder other =>
      exact settled_stopLoadAll fun drain member => (settled drain member).1
  | arrives index page => exact (arrives_sound sound settled index page).2
  | refetched folder more => exact settled
  | render other => exact settled

/-- From a hook without drains, in every order of calls, stops, folder changes and arriving
pages: a stopped drain requests no page, one drain at most waits, and `true` means a listing
read to its end, exactly when every call of `loadAll` was careful. -/
theorem drains_sound_iff {start final : LoadHook Folder}
    {trace : List (LoadHook Folder × LoadAction Folder)}
    (run : Execution LoadHook.Step start trace final)
    (idle : start.drains = []) (fresh : start.log = []) :
    (final.Sound ∧ ∀ visited ∈ trace, visited.1.Sound) ↔
      ∀ visited ∈ trace, visited.1.Careful visited.2 :=
  run.always_iff_of_invariant
    (fun _ _ _ sound settled taken => step_sound_iff sound settled taken)
    (fun _ _ _ sound settled taken after => step_settled sound settled taken after)
    (by simp [LoadHook.Sound, idle, fresh]) (by simp [LoadHook.Settled, idle])

/-- A folder of two shown with more pages to come. -/
def shownHook : LoadHook Bool :=
  ⟨false, fun _ => true, true, false, false, [], []⟩

/-- A drain started and stopped in one folder. -/
def stoppedDrain : List (LoadHook Bool × LoadAction Bool) :=
  [(shownHook, .loadAll), (shownHook.loadAll, .stopLoadAll)]

theorem stopped_drain_sound_iff :
    (shownHook.loadAll.stopLoadAll.Sound ∧ ∀ visited ∈ stoppedDrain, visited.1.Sound) ↔
      ∀ visited ∈ stoppedDrain, visited.1.Careful visited.2 :=
  drains_sound_iff (.snoc (.snoc .nil rfl) rfl) rfl rfl

/-- The user starts a drain, goes to another folder and starts one there before the page of the
first arrives. The first drain then requests a page of the new folder, and with its end it
resolves `true` for the old one, which has pages left. -/
theorem left_folder_drain_goes_on :
    ∃ (trace : List (LoadHook Bool × LoadAction Bool)) (final : LoadHook Bool),
      Execution LoadHook.Step shownHook trace final ∧
        trace.map Prod.snd =
          [.loadAll, .changeFolder true false, .loadAll, .arrives 0 (some true),
            .arrives 0 (some false)] ∧
        final.log = [.requested true, .resolved true true] ∧ ¬ final.Sound :=
  ⟨_, _, .snoc (.snoc (.snoc (.snoc (.snoc .nil rfl) rfl) rfl) rfl) rfl, rfl, rfl,
    fun sound => absurd (sound.2 (.requested true) (List.mem_cons_self ..)) (by decide)⟩

end Law

end S3Manager.Ui
