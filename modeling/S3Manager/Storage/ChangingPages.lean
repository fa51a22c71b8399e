import S3Manager.Library.Drain
import S3Manager.Storage.ClientChunks
import S3Manager.Storage.Interference

/-! The pages of a listing while other clients change the store. Every page is cut from what
the store holds when it is asked for. -/

set_option autoImplicit false

namespace S3Manager.Storage

open Python Library

section Pages

variable {conventions : Conventions} {kept pre offers escaped : Store → Prop} {params : ListParams}
  {mark : Option Str}

/-- The lines of a listing in some store that the others may bring about. -/
def Offered (offers : Store → Prop) (params : ListParams) (lines : List Listed) : Prop :=
  ∃ store, offers store ∧ lines = store.listing params

theorem offered_ascending (known : params.delimiter = none ∨ params.delimiter = some ['/'])
    (lines : List Listed) (offered : Offered offers params lines) :
    Paging.Ascending Listed.name lines := by
  obtain ⟨store, -, rfl⟩ := offered
  obtain plain | slash := known
  · exact listing_ascending plain
  · exact folder_ascending slash

/-- The page that a token asks for is cut from what lies behind its mark. -/
theorem answer_behind (store : Store)
    (stands : params.continuationToken = mark.map conventions.token) :
    store.answer conventions (.listObjectsV2 params) =
      (.ok (listPage conventions (pageSize params)
        (Paging.after Listed.name (store.listing params) mark)), store) := by
  refine answer_page ?_
  unfold Store.remaining
  rw [stands]
  cases mark with
  | none => rfl
  | some start => simp only [Option.map_some, conventions.mark_token]

/-- A page of the lines behind the mark. -/
def PageOf (conventions : Conventions) (offers : Store → Prop) (params : ListParams)
    (mark : Option Str) (page : ListPage) : Prop :=
  ∃ lines, Offered offers params lines ∧
    page = listPage conventions (pageSize params) (Paging.after Listed.name lines mark)

/-- One page, unless it comes too late. -/
theorem triple_page (stable : Stable kept pre) (settled : Stable kept escaped)
    (splits : ∀ store, pre store → escaped store ∨ offers store)
    (stands : params.continuationToken = mark.map conventions.token) :
    Triple conventions kept pre (S3Program.call (.listObjectsV2 params))
      (fun page store => escaped store ∨ pre store ∧ PageOf conventions offers params mark page)
      pre := by
  refine triple_read stable (fun _ => stable_or settled (stable_fact stable)) (fun _ => rfl)
    fun store page here answered => ?_
  rw [answer_behind store stands] at answered
  obtain rfl := Except.ok.inj answered
  exact (splits store here).imp id fun offer => ⟨here, _, ⟨store, offer, rfl⟩, rfl⟩

theorem Shows.append {front back : List ListPage} {first second : List Listed}
    (left : Shows front first) (right : Shows back second) :
    Shows (front ++ back) (first ++ second) where
  contents := by
    rw [List.flatMap_append, List.filterMap_append, left.contents, right.contents]
  commonPrefixes := by
    rw [List.flatMap_append, List.filterMap_append, left.commonPrefixes, right.commonPrefixes]

/-- What a page takes of the lines behind its mark, and where it leads. -/
theorem page_drains {lines : List Listed} (live : 0 < pageSize params)
    (offered : Offered offers params lines) :
    let page := listPage conventions (pageSize params) (Paging.after Listed.name lines mark)
    (page.morePages = none ∧ ∃ taken,
        Paging.Drain Listed.name (Offered offers params) mark taken none ∧ Shows [page] taken) ∨
      ∃ taken next, page.morePages = some (conventions.token next) ∧
        Paging.Drain Listed.name (Offered offers params) mark taken (some next) ∧
          Shows [page] taken := by
  cases more : Paging.nextMark Listed.name (pageSize params)
      (Paging.after Listed.name lines mark) with
  | none =>
      have marked := @Paging.nextMark_isSome _ _ Listed.name (pageSize params)
        (Paging.after Listed.name lines mark) live
      rw [more] at marked
      have short : ¬ pageSize params < (Paging.after Listed.name lines mark).length := by
        simpa using marked.symm
      have last := (@morePages_listPage conventions (pageSize params)
        (Paging.after Listed.name lines mark) live).mpr (not_lt.mp short)
      exact .inl ⟨last, _, .last offered, shows_last live last⟩
  | some next =>
      refine .inr ⟨_, next, ?_, .page offered more, shows_page _ _⟩
      have going : (listPage conventions (pageSize params)
          (Paging.after Listed.name lines mark)).nextContinuationToken =
            some (conventions.token next) := congrArg (Option.map conventions.token) more
      cases shown : (listPage conventions (pageSize params)
          (Paging.after Listed.name lines mark)).morePages with
      | none =>
          have short := (morePages_listPage live).mp shown
          have marked := @Paging.nextMark_isSome _ _ Listed.name (pageSize params)
            (Paging.after Listed.name lines mark) live
          rw [more, decide_eq_false (not_lt.mpr short)] at marked
          cases marked
      | some token => rw [← going, token_of_morePages shown]

/-- The pages of a paginator drain the listing, unless the others end that. The induction is
on the budget of pages. -/
theorem triple_paginate (pages : Nat) (stable : Stable kept pre) (settled : Stable kept escaped)
    (splits : ∀ store, pre store → escaped store ∨ offers store)
    (early : ∀ store, escaped store → pre store) (live : 0 < pageSize params)
    (stands : params.continuationToken = mark.map conventions.token) :
    Triple conventions kept pre (paginate pages params)
      (fun replies store => escaped store ∨ pre store ∧ ∃ taken,
        Paging.Drain Listed.name (Offered offers params) mark taken none ∧ Shows replies taken)
      pre := by
  -- once the others have ended it, the pages still to come change nothing about that
  have ended {α : Type} {program : S3Program α} {post : α → Store → Prop}
      (makes : Makes (fun request => ∃ params, request = .listObjectsV2 params) program) :
      Triple conventions kept escaped program (fun value store => escaped store ∨ post value store)
        pre := by
    refine triple_failed (triple_post (triple_of_makes settled ?_ makes)
      fun _ _ gone => .inl gone) early
    rintro _ store ⟨params, rfl⟩ here
    exact here
  have lists (searched bucket : Str) :
      MayList (fun request => ∃ params, request = .listObjectsV2 params) bucket searched :=
    fun params _ _ => ⟨params, rfl⟩
  induction pages generalizing params mark with
  | zero =>
      refine triple_bind stable (triple_page stable settled splits stands) fun page =>
        triple_or (ended ?_) (triple_fact ?_)
      · split
        · exact makes_pure _
        · exact makes_raise _ _
      · rintro ⟨lines, offered, rfl⟩
        obtain ⟨last, taken, drain, shows⟩ | ⟨taken, next, more, -, -⟩ :=
          @page_drains conventions offers params mark lines live offered
        · simp only [last]
          exact triple_pure stable fun store here => .inr ⟨here, taken, drain, shows⟩
        · simp only [more]
          exact triple_raise stable
  | succ pages ih =>
      refine triple_bind stable (triple_page stable settled splits stands) fun page =>
        triple_or (ended ?_) (triple_fact ?_)
      · split
        · exact makes_pure _
        · exact makes_bind (makes_paginate (lists _ _) rfl rfl _) fun _ => makes_pure _
      · rintro ⟨lines, offered, rfl⟩
        obtain ⟨last, taken, drain, shows⟩ | ⟨taken, next, more, drain, shows⟩ :=
          @page_drains conventions offers params mark lines live offered
        · simp only [last]
          exact triple_pure stable fun store here => .inr ⟨here, taken, drain, shows⟩
        · simp only [more]
          refine triple_bind stable (@ih (params.continueWith (conventions.token next)) (some next)
            live rfl) fun rest => triple_or (ended (makes_pure _)) (triple_fact ?_)
          rintro ⟨later, onward, shown⟩
          exact triple_pure stable fun store here =>
            .inr ⟨here, taken ++ later, drain.append onward, shows.append shown⟩

end Pages

end S3Manager.Storage
