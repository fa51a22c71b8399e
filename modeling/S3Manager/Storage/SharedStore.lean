import S3Manager.Storage.DeleteRuns
import S3Manager.Storage.HelperRequests

/-! A store that another client writes to while an operation runs. Before every effect of the
operation the other client may have put any number of bodies under one key; what is noted of
a run is these bodies, what was stored there when S3 answered, and what the operation was given
of it. -/

set_option autoImplicit false

namespace S3Manager.Storage

open Python Access Library

section Model

/-- A `PutObject` of the other client. -/
structure Overwrite where
  body : Bytes
  contentType : Option Str

structure SharedWorld where
  world : World
  /-- What the other client puts before the effects to come. -/
  puts : Nat → List Overwrite

/-- A body that the other client puts, or an answer of S3 about an object with this body. -/
inductive Sighting where
  | put (body : Bytes)
  | head (stored : Bytes)
  | load (ranged : Bool) (stored loaded : Bytes)
  deriving DecidableEq

variable (conventions : Conventions) (bucket key : Str)

def Store.overwrite (store : Store) (puts : List Overwrite) : Store :=
  puts.foldl (fun store put => store.put bucket key put.body put.contentType) store

/-- The world that the next effect meets. -/
def SharedWorld.met (shared : SharedWorld) : World where
  store := shared.world.store.overwrite bucket key (shared.puts 0)
  faults := shared.world.faults

def sharedHandle (effect : Effect) (shared : SharedWorld) : effect.Reply × SharedWorld :=
  let answered := handle conventions effect (shared.met bucket key)
  (answered.1, ⟨answered.2, fun count => shared.puts (count + 1)⟩)

def Store.bodyAt (store : Store) (bucket key : Str) : Bytes :=
  ((store.get? bucket key).map Stored.body).getD []

def observe : (effect : Effect) → effect.Reply → SharedWorld → List Sighting
  | .s3 (.headObject asked path), .ok _, shared =>
      [.head ((shared.met bucket key).store.bodyAt asked path)]
  | .s3 (.getObject asked path range), .ok body, shared =>
      [.load range.isSome ((shared.met bucket key).store.bodyAt asked path)
        (ObjectBody.content body)]
  | _, _, _ => []

/-- The bodies that the other client puts before an effect, and then what S3 answers. -/
def observeBoth (effect : Effect) (reply : effect.Reply) (shared : SharedWorld) : List Sighting :=
  (shared.puts 0).map (fun put => .put put.body) ++ observe bucket key effect reply shared

def Sighting.isAnswer : Sighting → Bool
  | .put _ => false
  | .head _ | .load _ _ _ => true

/-- What the key stores after these sightings, when it stored `body` before them. -/
def leftBy (body : Bytes) (seen : List Sighting) : Bytes :=
  seen.foldl (fun body sighting =>
    match sighting with
    | .put later => later
    | .head _ | .load _ _ _ => body) body

/-- Every answer is about what the last put has left. -/
def Consistent : Bytes → List Sighting → Prop
  | _, [] => True
  | _, .put body :: rest => Consistent body rest
  | body, .head stored :: rest => stored = body ∧ Consistent body rest
  | body, .load _ stored _ :: rest => stored = body ∧ Consistent body rest

/-- A request that only reads the object of the other client. -/
def OnlyReads : S3Request → Prop
  | .headObject asked path | .getObject asked path _ => asked = bucket ∧ path = key
  | _ => False

/-- An operation run in a shared world. -/
def S3Program.runShared {α : Type} (program : S3Program α) (shared : SharedWorld) : Result α :=
  (Program.run (sharedHandle conventions bucket key) program shared).1

def S3Program.sightings {α : Type} (program : S3Program α) (shared : SharedWorld) :
    List Sighting :=
  Program.trace (sharedHandle conventions bucket key) (observe bucket key) program shared

/-- The sightings in their order among the puts of the other client. -/
def S3Program.interleaving {α : Type} (program : S3Program α) (shared : SharedWorld) :
    List Sighting :=
  Program.trace (sharedHandle conventions bucket key) (observeBoth bucket key) program shared

/-- A value comes with sightings like these; an error leaves none behind. -/
def S3Program.Reads {α : Type} (program : S3Program α) (post : α → List Sighting → Prop) : Prop :=
  Program.Traces (sharedHandle conventions bucket key) (observe bucket key)
    (fun result events =>
      match result with
      | .ok value => post value events
      | .error _ => events = []) program

end Model

section Laws

variable {α β : Type} {conventions : Conventions} {bucket key : Str}

/-- Sequencing where an error ends the run with what was sighted so far. -/
theorem traces_then {program : S3Program α} {next : α → S3Program β}
    {between : Result α → List Sighting → Prop} {post : Result β → List Sighting → Prop}
    (first : Program.Traces (sharedHandle conventions bucket key) (observe bucket key) between
      program)
    (failed : ∀ exc seen, between (.error exc) seen → post (.error exc) seen)
    (second : ∀ value seen, between (.ok value) seen →
      Program.Traces (sharedHandle conventions bucket key) (observe bucket key)
        (fun result later => post result (seen ++ later)) (next value)) :
    Program.Traces (sharedHandle conventions bucket key) (observe bucket key) post
      (program >>= next : S3Program β) := by
  refine Program.traces_bind first fun result seen holds => ?_
  cases result with
  | ok value => exact second value seen holds
  | error exc =>
      intro _
      show post (.error exc) (seen ++ [])
      rw [List.append_nil]
      exact failed exc seen holds

theorem traces_mapError {program : S3Program α} {translate : PyError → PyError}
    {post : Result α → List Sighting → Prop}
    (traces : Program.Traces (sharedHandle conventions bucket key) (observe bucket key)
      (fun result seen => match result with
        | .ok value => post (.ok value) seen
        | .error _ => ∀ exc, post (.error exc) seen) program) :
    Program.Traces (sharedHandle conventions bucket key) (observe bucket key) post
      (program.mapError translate) := by
  refine Program.traces_bind traces fun result seen holds => ?_
  cases result with
  | ok value =>
      intro _
      show post (.ok value) (seen ++ [])
      rw [List.append_nil]
      exact holds
  | error exc =>
      intro _
      show post (.error (translate exc)) (seen ++ [])
      rw [List.append_nil]
      exact holds _

theorem reads_retry {unicode : Unicode} {roleName : Option Str} {callback : S3Program α}
    {post : α → List Sighting → Prop} (reads : callback.Reads conventions bucket key post) :
    (executeWithS3Retry unicode roleName callback).Reads conventions bucket key post := by
  have second : (secondAttempt unicode roleName callback).Reads conventions bucket key post := by
    refine Program.traces_silent (fun _ _ => rfl) fun reply => ?_
    cases reply with
    | error exc => exact fun _ => rfl
    | ok _ =>
        refine Program.traces_bind reads fun result events seen => ?_
        cases result with
        | ok value => exact fun _ => by simpa [Program.trace] using seen
        | error exc =>
            obtain rfl : events = [] := seen
            dsimp only
            split_ifs <;> exact fun _ => rfl
  refine Program.traces_silent (fun _ _ => rfl) fun reply => ?_
  cases reply with
  | error exc =>
      dsimp only
      split_ifs
      · exact Program.traces_silent (fun _ _ => rfl) fun _ => second
      · exact fun _ => rfl
  | ok _ =>
      refine Program.traces_bind reads fun result events seen => ?_
      cases result with
      | ok value => exact fun _ => by simpa [Program.trace] using seen
      | error exc =>
          obtain rfl : events = [] := seen
          dsimp only
          split_ifs
          · exact fun _ => rfl
          · exact Program.traces_silent (fun _ _ => rfl) fun _ => second
          · exact fun _ => rfl

theorem reads_mapError {program : S3Program α} {translate : PyError → PyError}
    {post : α → List Sighting → Prop} (reads : program.Reads conventions bucket key post) :
    (program.mapError translate).Reads conventions bucket key post := by
  refine traces_mapError (Program.traces_mono reads fun result seen holds => ?_)
  cases result with
  | ok value => exact holds
  | error _ => exact fun _ => holds

theorem reads_gatedCall {unicode : Unicode} {config : Dict} {role : Option Str}
    {asked path : Str} {user : UserDict} {callback : S3Program α}
    {post : α → List Sighting → Prop} (reads : callback.Reads conventions bucket key post) :
    (gatedCall unicode config role asked path user callback).Reads conventions bucket key post := by
  unfold gatedCall
  cases validateStorageAccess config role asked user path with
  | error exc => exact fun _ => rfl
  | ok validated => exact reads_retry reads

theorem reads_map {program : S3Program α} {value : α → β} {post : β → List Sighting → Prop}
    (reads : program.Reads conventions bucket key fun result => post (value result)) :
    (program >>= fun result => pure (value result)).Reads conventions bucket key post := by
  refine traces_then reads (fun exc seen nothing => ?_) fun result seen holds _ => ?_
  · exact nothing
  · show post (value result) (seen ++ [])
    rw [List.append_nil]
    exact holds

theorem observe_error (request : S3Request) (exc : PyError) (shared : SharedWorld) :
    observe bucket key (.s3 request) (.error exc) shared = [] := by
  cases request <;> rfl

theorem reads_call {request : S3Request} {post : request.Answer → List Sighting → Prop}
    (answered : ∀ shared answer,
      (handle conventions (.s3 request) (shared.met bucket key)).1 = .ok answer →
        post answer (observe bucket key (.s3 request) (.ok answer) shared)) :
    (S3Program.call request).Reads conventions bucket key post := by
  intro shared
  have ran : (Program.run (sharedHandle conventions bucket key) (S3Program.call request) shared).1 =
      (handle conventions (.s3 request) (shared.met bucket key)).1 := rfl
  have noted : Program.trace (sharedHandle conventions bucket key) (observe bucket key)
      (S3Program.call request) shared = observe bucket key (.s3 request)
        (handle conventions (.s3 request) (shared.met bucket key)).1 shared :=
    List.append_nil _
  rw [ran, noted]
  cases reply : (handle conventions (.s3 request) (shared.met bucket key)).1 with
  | ok answer => exact answered shared answer reply
  | error exc => exact observe_error request exc shared

/-- S3 answers without a fault from the store that the request meets. -/
theorem handle_ok {request : S3Request} {world : World} {answer : request.Answer}
    (answered : (handle conventions (.s3 request) world).1 = .ok answer) :
    (world.store.answer conventions request).1 = .ok answer := by
  cases fault : world.faults 0 with
  | some exc =>
      rw [handle_fails fault] at answered
      cases answered
  | none =>
      rw [handle_answers fault] at answered
      exact answered

end Laws

section Objects

variable {conventions : Conventions} {bucket key : Str} {unicode : Unicode} {config : Dict}
  {role : Option Str} {asked path : Str} {user : UserDict}

theorem head_reads :
    (headObjectForRole unicode config role asked path user).Reads conventions bucket key
      fun size seen => ∃ stored, size = stored.length ∧ seen = [.head stored] := by
  refine reads_gatedCall (reads_map (reads_mapError (reads_call fun shared answer answered => ?_)))
  have replied := handle_ok answered
  simp only [Store.answer] at replied
  refine ⟨_, ?_, rfl⟩
  cases found : (shared.met bucket key).store.get? asked path with
  | none =>
      rw [found] at replied
      cases replied
  | some stored =>
      rw [found] at replied
      obtain rfl := Except.ok.inj replied
      simp [Store.bodyAt, found]

theorem whole_reads :
    (readObjectForRole unicode config role asked path user).Reads conventions bucket key
      fun raw seen => seen = [.load false raw raw] := by
  refine reads_gatedCall (reads_map (reads_mapError (reads_call fun shared answer answered => ?_)))
  have replied := handle_ok answered
  simp only [Store.answer, Store.getObject] at replied
  cases found : (shared.met bucket key).store.get? asked path with
  | none =>
      rw [found] at replied
      cases replied
  | some stored =>
      rw [found] at replied
      obtain rfl := Except.ok.inj replied
      simp [observe, Store.bodyAt, found]

theorem range_reads (first last : Nat) :
    (readObjectRangeForRole unicode config role asked path first last user).Reads conventions
      bucket key fun part seen => ∃ stored : Bytes, part = (stored.take (last + 1)).drop first ∧
        seen = [.load true stored part] := by
  refine reads_gatedCall (reads_map (reads_mapError (reads_call fun shared answer answered => ?_)))
  have replied := handle_ok answered
  simp only [Store.answer, Store.getObject] at replied
  refine ⟨(shared.met bucket key).store.bodyAt asked path, ?_, rfl⟩
  cases found : (shared.met bucket key).store.get? asked path with
  | none =>
      rw [found] at replied
      cases replied
  | some stored =>
      rw [found] at replied
      dsimp only at replied
      split_ifs at replied
      · cases replied
      · obtain rfl := Except.ok.inj replied
        simp [Store.bodyAt, found]

end Objects

section Interleaving

variable {α : Type} {conventions : Conventions} {bucket key : Str} {body : Bytes}

/-- The sightings are the interleaving without the puts. -/
theorem interleaving_answers (program : S3Program α) (shared : SharedWorld) :
    (program.interleaving conventions bucket key shared).filter Sighting.isAnswer =
      program.sightings conventions bucket key shared := by
  refine Program.trace_filter (fun effect reply shared => ?_) program shared
  have answers : (observe bucket key effect reply shared).filter Sighting.isAnswer =
      observe bucket key effect reply shared := by
    refine List.filter_eq_self.mpr fun sighting noted => ?_
    unfold observe at noted
    split at noted
    · rw [List.mem_singleton.mp noted]
      rfl
    · rw [List.mem_singleton.mp noted]
      rfl
    · cases noted
  have puts : ((shared.puts 0).map fun put => Sighting.put put.body).filter Sighting.isAnswer =
      [] := by
    refine List.filter_eq_nil_iff.mpr fun sighting noted => ?_
    obtain ⟨put, -, rfl⟩ := List.mem_map.mp noted
    exact Bool.false_ne_true
  rw [observeBoth, List.filter_append, puts, answers, List.nil_append]

theorem consistent_puts (puts : List Overwrite) {rest : List Sighting} :
    Consistent body (puts.map (fun put => .put put.body) ++ rest) ↔
      Consistent (puts.foldl (fun _ put => put.body) body) rest := by
  induction puts generalizing body with
  | nil => rfl
  | cons put others ih => exact ih

theorem overwrite_bodyAt (store : Store) (puts : List Overwrite) :
    (store.overwrite bucket key puts).bodyAt bucket key =
      puts.foldl (fun _ put => put.body) (store.bodyAt bucket key) := by
  induction puts generalizing store with
  | nil => rfl
  | cons put others ih =>
      have written : (store.put bucket key put.body put.contentType).bodyAt bucket key =
          put.body := by
        simp [Store.bodyAt, get?_put]
      rw [Store.overwrite, List.foldl_cons, ← Store.overwrite, ih, written, List.foldl_cons]

/-- Reads leave the store as it is. -/
theorem answer_onlyReads {request : S3Request} (reads : OnlyReads bucket key request) (store : Store) :
    (store.answer conventions request).2 = store := by
  cases request with
  | headObject asked path =>
      simp only [Store.answer]
      split <;> rfl
  | getObject => rfl
  | listObjectsV2 | putObject | uploadFileobj | copyObject | deleteObject | deleteObjects
  | generatePresignedUrl | listBuckets => exact reads.elim

theorem handle_onlyReads {effect : Effect} (reads : onlyS3 (OnlyReads bucket key) effect)
    (world : World) : (handle conventions effect world).2.store = world.store := by
  cases effect with
  | getClient roleName =>
      simp only [handle]
      split <;> rfl
  | invalidateClient roleName => rfl
  | s3 request =>
      cases fault : world.faults 0 with
      | some exc =>
          rw [handle_fails fault]
          rfl
      | none =>
          rw [handle_answers fault]
          exact answer_onlyReads reads world.store

/-- An answer is about the object that the request meets. -/
theorem consistent_observe {effect : Effect} (reads : onlyS3 (OnlyReads bucket key) effect)
    (reply : effect.Reply) (shared : SharedWorld) {rest : List Sighting}
    (later : Consistent ((shared.met bucket key).store.bodyAt bucket key) rest) :
    Consistent ((shared.met bucket key).store.bodyAt bucket key)
      (observe bucket key effect reply shared ++ rest) := by
  unfold observe
  split
  · obtain ⟨rfl, rfl⟩ := reads
    exact ⟨rfl, later⟩
  · obtain ⟨rfl, rfl⟩ := reads
    exact ⟨rfl, later⟩
  · exact later

/-- In a run of reads every answer is about the last put before it. -/
theorem interleaving_consistent {program : S3Program α} (reads : Makes (OnlyReads bucket key) program)
    (shared : SharedWorld) :
    Consistent (shared.world.store.bodyAt bucket key)
      (program.interleaving conventions bucket key shared) := by
  unfold Makes S3Program.Sends at reads
  unfold S3Program.interleaving
  induction program generalizing shared with
  | pure value => trivial
  | perform effect next ih =>
      obtain ⟨permitted, later⟩ := reads
      rw [Program.trace, observeBoth, List.append_assoc, consistent_puts, ← overwrite_bodyAt]
      refine consistent_observe permitted _ shared ?_
      have kept := @handle_onlyReads conventions bucket key effect permitted (shared.met bucket key)
      rw [← kept]
      refine ih _ (later _ ?_) (sharedHandle conventions bucket key effect shared).2
      cases effect with
      | getClient | invalidateClient => trivial
      | s3 request =>
          cases request with
          | listObjectsV2 params => exact permitted.elim
          | _ => exact fun _ _ => trivial

/-- What the last put between two moments has left is what is sighted at the second. -/
theorem consistent_between {between rest : List Sighting} {ranged : Bool} {stored loaded : Bytes}
    (holds : Consistent body (between ++ .load ranged stored loaded :: rest)) :
    stored = leftBy body between := by
  induction between generalizing body with
  | nil => exact holds.1
  | cons sighting others ih =>
      cases sighting with
      | put later => exact ih holds
      | head | load => exact ih holds.2

theorem consistent_after {before rest : List Sighting} {first : Bytes}
    (holds : Consistent body (before ++ .head first :: rest)) : Consistent first rest := by
  induction before generalizing body with
  | nil =>
      obtain ⟨rfl, later⟩ := holds
      exact later
  | cons sighting others ih =>
      cases sighting with
      | put later => exact ih holds
      | head | load => exact ih holds.2

/-- Puts of bodies of one size keep the size. -/
theorem leftBy_length {between : List Sighting} {size : Nat} (start : body.length = size)
    (kept : ∀ later, .put later ∈ between → later.length = size) :
    (leftBy body between).length = size := by
  induction between generalizing body with
  | nil => exact start
  | cons sighting others ih =>
      have still : ∀ later, .put later ∈ others → later.length = size :=
        fun later member => kept later (List.mem_cons_of_mem _ member)
      cases sighting with
      | put later => exact ih (kept later List.mem_cons_self) still
      | head | load => exact ih start still

end Interleaving

end S3Manager.Storage
