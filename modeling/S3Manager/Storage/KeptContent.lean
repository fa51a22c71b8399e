import S3Manager.Storage.DeleteRuns
import S3Manager.Storage.Interference

/-! The helpers for one object while other clients leave that object alone: what an upload has
put is what the reads find. -/

set_option autoImplicit false

namespace S3Manager.Storage

open Python Access Library

section Content

variable {conventions : Conventions} {unicode : Unicode} {config : Dict} {role : Option Str}
  {bucket key : Str} {user : UserDict} {content : Bytes}

/-- The object is there, with this content. -/
def Holds (bucket key : Str) (content : Bytes) (store : Store) : Prop :=
  ∃ stored, store.get? bucket key = some stored ∧ stored.body = content

theorem holds_put (store : Store) (contentType : Option Str) :
    Holds bucket key content (store.put bucket key content contentType) :=
  ⟨_, by rw [get?_put, if_pos ⟨rfl, rfl⟩], rfl⟩

theorem triple_putObject (contentType : Str) (contentDisposition : Option Str) :
    Triple conventions (Holds bucket key content) (fun _ => True)
      (putObjectForRole unicode config role bucket key content user contentType contentDisposition)
      (fun _ => Holds bucket key content) fun _ => True :=
  triple_check stable_true fun _ _ => triple_retry stable_true (fun _ => stable_kept)
    (triple_call stable_true (fun _ => stable_kept) fun store _ => holds_put store _)

theorem triple_uploadFileobj (contentType : Str) (contentDisposition : Option Str) :
    Triple conventions (Holds bucket key content) (fun _ => True)
      (uploadFileobjForRole unicode config role bucket key content user contentType
        contentDisposition)
      (fun _ => Holds bucket key content) fun _ => True :=
  triple_check stable_true fun _ _ => triple_retry stable_true (fun _ => stable_kept)
    (triple_call stable_true (fun _ => stable_kept) fun store _ => holds_put store _)

/-- A request for the object, of whose answer a part is returned. -/
theorem triple_gatedPart {α : Type} {request : S3Request} {message : Str}
    {part : request.Answer → α} {shows : α → Prop}
    (reads : ∀ store : Store, (store.answer conventions request).2 = store)
    (answers : ∀ (store : Store) answer, Holds bucket key content store →
      (store.answer conventions request).1 = .ok answer → shows (part answer)) :
    Triple conventions (Holds bucket key content) (Holds bucket key content)
      (gatedCall unicode config role bucket key user do
        let answer ← (S3Program.call request).mapError (missingAs message)
        pure (part answer))
      (fun value store => Holds bucket key content store ∧ shows value)
      (Holds bucket key content) := by
  have called : Triple conventions (Holds bucket key content) (Holds bucket key content)
      ((S3Program.call request).mapError (missingAs message))
      (fun answer store => Holds bucket key content store ∧ shows (part answer))
      (Holds bucket key content) :=
    triple_mapError (fun _ => stable_fact stable_kept) stable_kept
      (triple_read stable_kept (fun _ => stable_fact stable_kept) reads
        fun store answer here answered => ⟨here, answers store answer here answered⟩)
  refine triple_check stable_kept fun _ _ => triple_retry stable_kept
    (fun _ => stable_fact stable_kept) (triple_bind stable_kept called fun answer => ?_)
  exact triple_fact fun shown => triple_pure stable_kept fun store here => ⟨here, shown⟩

theorem answer_head {store : Store} {head : ObjectHead} (here : Holds bucket key content store)
    (answered : (store.answer conventions (.headObject bucket key)).1 = .ok head) :
    head.contentLength = content.length := by
  obtain ⟨stored, found, rfl⟩ := here
  simp only [Store.answer, found] at answered
  obtain rfl := Except.ok.inj answered
  rfl

theorem answer_get {store : Store} {body : ObjectBody} (here : Holds bucket key content store)
    (answered : (store.answer conventions (.getObject bucket key none)).1 = .ok body) :
    body.content = content ∧ body.contentLength = content.length := by
  obtain ⟨stored, found, rfl⟩ := here
  simp only [Store.answer, Store.getObject, found] at answered
  obtain rfl := Except.ok.inj answered
  exact ⟨rfl, rfl⟩

theorem triple_headObject :
    Triple conventions (Holds bucket key content) (Holds bucket key content)
      (headObjectForRole unicode config role bucket key user)
      (fun size store => Holds bucket key content store ∧ size = content.length)
      (Holds bucket key content) := by
  refine triple_gatedPart (fun store => ?_) fun _ _ here answered => answer_head here answered
  simp only [Store.answer]
  split <;> rfl

theorem triple_getObjectMetadata :
    Triple conventions (Holds bucket key content) (Holds bucket key content)
      (getObjectMetadataForRole unicode config role bucket key user)
      (fun head store => Holds bucket key content store ∧ head.contentLength = content.length)
      (Holds bucket key content) := by
  refine triple_gatedPart (fun store => ?_) fun _ _ here answered => ?_
  · simp only [Store.answer]
    split <;> rfl
  · have size := answer_head here answered
    exact size

theorem triple_readObject :
    Triple conventions (Holds bucket key content) (Holds bucket key content)
      (readObjectForRole unicode config role bucket key user)
      (fun body store => Holds bucket key content store ∧ body = content)
      (Holds bucket key content) :=
  triple_gatedPart (fun _ => rfl) fun _ _ here answered => (answer_get here answered).1

theorem triple_readObjectRange (first last : Nat) :
    Triple conventions (Holds bucket key content) (Holds bucket key content)
      (readObjectRangeForRole unicode config role bucket key first last user)
      (fun _ => Holds bucket key content) (Holds bucket key content) :=
  triple_post (@triple_gatedPart conventions unicode config role bucket key user content Bytes _ _ _
    (fun _ => True) (fun _ => rfl) fun _ _ _ _ => trivial) fun _ _ ended => ended.1

theorem triple_iterObject :
    Triple conventions (Holds bucket key content) (Holds bucket key content)
      (iterObjectForRole unicode config role bucket key user)
      (fun body store => Holds bucket key content store ∧ body.content = content ∧
        body.contentLength = content.length)
      (Holds bucket key content) :=
  triple_check stable_kept fun _ _ => triple_retry stable_kept (fun _ => stable_fact stable_kept)
    (triple_mapError (fun _ => stable_fact stable_kept) stable_kept
      (triple_read stable_kept (fun _ => stable_fact stable_kept) (fun _ => rfl)
        fun _ _ here answered => ⟨here, answer_get here answered⟩))

end Content

end S3Manager.Storage
