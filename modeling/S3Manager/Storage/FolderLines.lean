import S3Manager.Storage.StoreRuns

/-! The lines of a listing with the delimiter `/`: the objects right under a prefix,
and one common prefix for everything below each folder. -/

set_option autoImplicit false

namespace S3Manager.Storage

open Python Library

section Delimiter

theorem uptoDelimiter_slash_none {text : Str} : uptoDelimiter ['/'] text = none ↔ '/' ∉ text := by
  induction text with
  | nil => simp [uptoDelimiter]
  | cons c rest ih =>
      by_cases slash : '/' = c
      · simp [uptoDelimiter, ← slash]
      · simp [uptoDelimiter, slash, ih]

theorem uptoDelimiter_slash_some {text segment : Str} :
    uptoDelimiter ['/'] text = some segment ↔
      ∃ front rest, text = front ++ '/' :: rest ∧ '/' ∉ front ∧ segment = front ++ ['/'] := by
  induction text generalizing segment with
  | nil => simp [uptoDelimiter]
  | cons c tail ih =>
      by_cases slash : '/' = c
      · subst slash
        have here : uptoDelimiter ['/'] ('/' :: tail) = some ['/'] := by simp [uptoDelimiter]
        rw [here, Option.some.injEq]
        constructor
        · intro same
          exact ⟨[], tail, rfl, by simp, same.symm⟩
        · intro found
          obtain ⟨front, rest, split, clean, rfl⟩ := found
          cases front with
          | nil => rfl
          | cons first more =>
              obtain rfl := (List.cons.inj split).1
              exact absurd List.mem_cons_self clean
      · have below : uptoDelimiter ['/'] (c :: tail) = (uptoDelimiter ['/'] tail).map (c :: ·) := by
          simp [uptoDelimiter, slash]
        rw [below, Option.map_eq_some_iff]
        constructor
        · intro found
          obtain ⟨inner, shape, rfl⟩ := found
          obtain ⟨front, rest, rfl, clean, rfl⟩ := ih.mp shape
          exact ⟨c :: front, rest, rfl, by simp [slash, clean], rfl⟩
        · intro found
          obtain ⟨front, rest, split, clean, rfl⟩ := found
          cases front with
          | nil => exact absurd (List.cons.inj split).1.symm slash
          | cons first more =>
              obtain ⟨rfl, later⟩ := List.cons.inj split
              refine ⟨more ++ ['/'], ih.mpr ⟨more, rest, later, ?_, rfl⟩, rfl⟩
              exact fun member => clean (List.mem_cons_of_mem _ member)

theorem split_slash {text : Str} (below : '/' ∈ text) :
    ∃ front rest, text = front ++ '/' :: rest ∧ '/' ∉ front := by
  cases cut : uptoDelimiter ['/'] text with
  | none => exact absurd below (uptoDelimiter_slash_none.mp cut)
  | some segment =>
      obtain ⟨front, rest, whole, clean, -⟩ := uptoDelimiter_slash_some.mp cut
      exact ⟨front, rest, whole, clean⟩

end Delimiter

section Level

theorem append_lt_iff {front left right : Str} : front ++ left < front ++ right ↔ left < right := by
  induction front with
  | nil => rfl
  | cons c rest ih =>
      refine List.cons_lt_cons_iff.trans ?_
      simp [ih]

/-- The part of a text that a listing shows: all of it, or up to the first slash. -/
def level : Str → Str
  | [] => []
  | c :: rest => if c = '/' then ['/'] else c :: level rest

theorem level_of_plain {text : Str} (plain : '/' ∉ text) : level text = text := by
  induction text with
  | nil => rfl
  | cons c rest ih =>
      have other : c ≠ '/' := by
        rintro rfl
        exact plain List.mem_cons_self
      rw [level, if_neg other, ih fun member => plain (List.mem_cons_of_mem _ member)]

theorem level_of_slash {front : Str} (rest : Str) (plain : '/' ∉ front) :
    level (front ++ '/' :: rest) = front ++ ['/'] := by
  induction front with
  | nil => rfl
  | cons c more ih =>
      have other : c ≠ '/' := by
        rintro rfl
        exact plain List.mem_cons_self
      rw [List.cons_append, level, if_neg other,
        ih fun member => plain (List.mem_cons_of_mem _ member)]
      rfl

/-- Cutting at the first slash keeps the order, and makes equal only texts that go
on below one folder. -/
theorem level_order {left right : Str} (before : left < right) :
    level left < level right ∨ level left = level right ∧ '/' ∈ left ∧ '/' ∈ right := by
  induction left generalizing right with
  | nil =>
      cases right with
      | nil => exact absurd before (lt_irrefl _)
      | cons d tail =>
          refine .inl ?_
          unfold level
          split <;> exact List.nil_lt_cons _ _
  | cons c rest ih =>
      cases right with
      | nil => exact absurd before (List.not_lt_nil _)
      | cons d tail =>
          obtain lower | ⟨rfl, later⟩ := List.cons_lt_cons_iff.mp before
          · refine .inl ?_
            unfold level
            split <;> rename_i slash <;> split <;> rename_i slash' <;>
              refine List.cons_lt_cons_iff.mpr (.inl ?_)
            · exact absurd (slash.trans slash'.symm ▸ lower) (lt_irrefl _)
            · exact slash ▸ lower
            · exact slash' ▸ lower
            · exact lower
          · by_cases slash : c = '/'
            · exact .inr (by simp [level, slash])
            · simp only [level, slash, if_false]
              obtain below | ⟨same, inLeft, inRight⟩ := ih later
              · exact .inl (List.cons_lt_cons_iff.mpr (.inr ⟨rfl, below⟩))
              · exact .inr ⟨by rw [same], List.mem_cons_of_mem _ inLeft,
                  List.mem_cons_of_mem _ inRight⟩

end Level

section Lines

variable {store : Store} {params : ListParams} {conventions : Conventions}

theorem mem_rollUp {item : Listed} {lines : List Listed} : item ∈ rollUp lines ↔ item ∈ lines := by
  induction lines generalizing item with
  | nil => simp [rollUp]
  | cons first rest ih =>
      rw [rollUp]
      split
      · next again =>
          have shown : first ∈ rest := ih.mp (List.mem_of_head? again.2)
          rw [ih, List.mem_cons]
          exact ⟨.inr, fun member => member.elim (fun same => same ▸ shown) id⟩
      · simp [ih]

/-- Lines in order, in which only groups occur again. -/
def LineOrder (left right : Listed) : Prop :=
  left.name < right.name ∨ left = right ∧ left.group?.isSome

theorem rollUp_ascending {lines : List Listed} (ordered : lines.Pairwise LineOrder) :
    Paging.Ascending Listed.name (rollUp lines) := by
  induction lines with
  | nil => exact .nil
  | cons first rest ih =>
      obtain ⟨above, later⟩ := List.pairwise_cons.mp ordered
      have ascending := ih later
      rw [rollUp]
      split
      · exact ascending
      · next fresh =>
          refine List.pairwise_cons.mpr ⟨fun item member => ?_, ascending⟩
          obtain lower | ⟨rfl, group⟩ := above item (mem_rollUp.mp member)
          · exact lower
          · -- The first line that is left would be this group again.
            cases shape : rollUp rest with
            | nil => simp [shape] at member
            | cons head tail =>
                rw [shape] at member ascending fresh
                have headAbove := above head (mem_rollUp.mp (by simp [shape]))
                obtain lower | ⟨same, -⟩ := headAbove
                · obtain rfl | inTail := List.mem_cons.mp member
                  · exact lower
                  · exact absurd ((List.pairwise_cons.mp ascending).1 first inTail) lower.not_gt
                · exact absurd ⟨group, by rw [List.head?_cons, same]⟩ fresh

theorem listed_of_plain (slash : params.delimiter = some ['/']) {rest : Str} (stored : Stored)
    (plain : '/' ∉ rest) :
    listed params (params.searchPrefix ++ rest, stored) =
      .object (storedObject (params.searchPrefix ++ rest, stored)) := by
  simp only [listed, slash, List.drop_left, uptoDelimiter_slash_none.mpr plain]

theorem listed_of_slash (slash : params.delimiter = some ['/']) {rest : Str} (stored : Stored)
    (below : '/' ∈ rest) :
    listed params (params.searchPrefix ++ rest, stored) =
      .group (params.searchPrefix ++ level rest) := by
  cases cut : uptoDelimiter ['/'] rest with
  | none => exact absurd below (uptoDelimiter_slash_none.mp cut)
  | some segment =>
      simp only [listed, slash, List.drop_left, cut]
      obtain ⟨front, tail, rfl, clean, rfl⟩ := uptoDelimiter_slash_some.mp cut
      rw [level_of_slash tail clean]

theorem listed_name (slash : params.delimiter = some ['/']) (rest : Str) (stored : Stored) :
    (listed params (params.searchPrefix ++ rest, stored)).name =
      params.searchPrefix ++ level rest := by
  by_cases below : '/' ∈ rest
  · rw [listed_of_slash slash stored below]
    rfl
  · rw [listed_of_plain slash stored below, level_of_plain below]
    rfl

theorem listed_lineOrder (slash : params.delimiter = some ['/']) {left right : Str × Stored}
    (leftUnder : params.searchPrefix <+: left.1) (rightUnder : params.searchPrefix <+: right.1)
    (before : left.1 < right.1) : LineOrder (listed params left) (listed params right) := by
  obtain ⟨leftKey, leftStored⟩ := left
  obtain ⟨rightKey, rightStored⟩ := right
  obtain ⟨leftRest, rfl⟩ := leftUnder
  obtain ⟨rightRest, rfl⟩ := rightUnder
  obtain below | ⟨same, leftSlash, rightSlash⟩ := level_order (append_lt_iff.mp before)
  · refine .inl ?_
    rw [listed_name slash, listed_name slash]
    exact append_lt_iff.mpr below
  · refine .inr ?_
    rw [listed_of_slash slash _ leftSlash, listed_of_slash slash _ rightSlash, same]
    exact ⟨rfl, rfl⟩

theorem mem_listing {item : Listed} :
    item ∈ store.listing params ↔
      ∃ entry ∈ (store.objects params.bucket).entries, params.searchPrefix <+: entry.1 ∧
        listed params entry = item := by
  simp only [Store.listing, mem_rollUp, List.mem_map, List.mem_filter, List.isPrefixOf_iff_prefix,
    and_assoc]

theorem listed_object {entry : Str × Stored} {object : S3Object}
    (shown : listed params entry = .object object) : storedObject entry = object := by
  unfold listed at shown
  split at shown
  · exact Listed.object.inj shown
  · split at shown
    · exact Listed.object.inj shown
    · cases shown

theorem object_line {object : S3Object} (line : .object object ∈ store.listing params) :
    params.searchPrefix <+: object.key ∧
      ∃ stored, store.get? params.bucket object.key = some stored := by
  obtain ⟨entry, member, under, shown⟩ := mem_listing.mp line
  obtain rfl := listed_object shown
  exact ⟨under, entry.2, (OrderedMap.get?_eq_some_iff _).mpr member⟩

theorem level_slash {text : Str} (below : '/' ∈ text) :
    endsWith (level text) ['/'] = true ∧ level text <+: text := by
  obtain ⟨front, rest, rfl, clean⟩ := split_slash below
  rw [level_of_slash rest clean]
  exact ⟨endsWith_concat_slash front, ⟨rest, by simp⟩⟩

theorem group_line (slash : params.delimiter = some ['/']) {commonPrefix : Str}
    (line : .group commonPrefix ∈ store.listing params) :
    params.searchPrefix <+: commonPrefix ∧ endsWith commonPrefix ['/'] = true ∧
      ∃ below stored, commonPrefix <+: below ∧ store.get? params.bucket below = some stored := by
  obtain ⟨entry, member, under, shown⟩ := mem_listing.mp line
  obtain ⟨key, stored⟩ := entry
  obtain ⟨rest, rfl⟩ := under
  by_cases below : '/' ∈ rest
  · rw [listed_of_slash slash stored below] at shown
    obtain rfl := Listed.group.inj shown
    obtain ⟨ends, within⟩ := level_slash below
    refine ⟨List.prefix_append .., ?_, _, stored, ?_,
      (OrderedMap.get?_eq_some_iff _).mpr member⟩
    · exact endsWith_iff.mpr ((endsWith_iff.mp ends).trans (List.suffix_append ..))
    · exact (List.prefix_append_right_inj _).mpr within
  · rw [listed_of_plain slash stored below] at shown
    cases shown

/-- The common prefixes of a folder listing are one segment longer, with keys below. -/
theorem group_iff (slash : params.delimiter = some ['/']) {commonPrefix : Str} :
    .group commonPrefix ∈ store.listing params ↔
      (∃ segment, '/' ∉ segment ∧ commonPrefix = params.searchPrefix ++ segment ++ ['/']) ∧
        ∃ key, commonPrefix <+: key ∧ store.get? params.bucket key ≠ none := by
  constructor
  · intro line
    obtain ⟨⟨key, stored⟩, member, ⟨rest, under⟩, shown⟩ := mem_listing.mp line
    dsimp only at under member
    subst under
    by_cases below : '/' ∈ rest
    · obtain rfl := Listed.group.inj ((listed_of_slash slash stored below).symm.trans shown)
      obtain ⟨front, back, rfl, plain⟩ := split_slash below
      refine ⟨⟨front, plain, ?_⟩, params.searchPrefix ++ (front ++ '/' :: back), ?_, ?_⟩
      · rw [level_of_slash back plain, List.append_assoc]
      · exact (List.prefix_append_right_inj _).mpr (level_slash below).2
      · rw [Store.get?, (OrderedMap.get?_eq_some_iff _).mpr member]
        exact Option.some_ne_none stored
    · cases (listed_of_plain slash stored below).symm.trans shown
  · intro claim
    obtain ⟨⟨segment, plain, rfl⟩, key, ⟨rest, under⟩, present⟩ := claim
    obtain ⟨stored, found⟩ := Option.ne_none_iff_exists'.mp present
    have whole : key = params.searchPrefix ++ (segment ++ '/' :: rest) := by
      rw [← under]
      simp
    subst whole
    refine mem_listing.mpr ⟨_, (OrderedMap.get?_eq_some_iff _).mp found, List.prefix_append .., ?_⟩
    have below : '/' ∈ segment ++ '/' :: rest := by simp
    rw [listed_of_slash slash stored below, level_of_slash rest plain, List.append_assoc]

theorem object_iff (slash : params.delimiter = some ['/']) {key : Str} :
    (∃ object : S3Object, .object object ∈ store.listing params ∧ object.key = key) ↔
      (∃ rest, '/' ∉ rest ∧ key = params.searchPrefix ++ rest) ∧
        store.get? params.bucket key ≠ none := by
  constructor
  · intro claim
    obtain ⟨object, line, rfl⟩ := claim
    obtain ⟨⟨rest, under⟩, stored, found⟩ := object_line line
    refine ⟨⟨rest, ?_, under.symm⟩, by rw [found]; exact Option.some_ne_none stored⟩
    intro below
    obtain ⟨⟨key, stored⟩, member, _, shown⟩ := mem_listing.mp line
    obtain rfl := listed_object shown
    change _ = key at under
    rw [← under, listed_of_slash slash stored below] at shown
    cases shown
  · intro claim
    obtain ⟨⟨rest, plain, rfl⟩, present⟩ := claim
    obtain ⟨stored, found⟩ := Option.ne_none_iff_exists'.mp present
    exact ⟨_, mem_listing.mpr ⟨_, (OrderedMap.get?_eq_some_iff _).mp found, List.prefix_append ..,
      listed_of_plain slash stored plain⟩, rfl⟩

/-- Each common prefix stands once in a folder listing, and all lines are in order. -/
theorem folder_ascending (slash : params.delimiter = some ['/']) :
    Paging.Ascending Listed.name (store.listing params) := by
  refine rollUp_ascending (List.pairwise_map.mpr ?_)
  have ordered := (store.objects params.bucket).ascending.filter fun entry =>
    params.searchPrefix.isPrefixOf entry.1
  refine List.Pairwise.imp_of_mem (fun leftMember rightMember before => ?_) ordered
  have under {entry : Str × Stored}
      (member : entry ∈ (store.objects params.bucket).entries.filter fun entry =>
        params.searchPrefix.isPrefixOf entry.1) : params.searchPrefix <+: entry.1 :=
    List.isPrefixOf_iff_prefix.mp (List.mem_filter.mp member).2
  exact listed_lineOrder slash (under leftMember) (under rightMember) before

end Lines

section Answers

variable {α : Type} {store : Store} {params : ListParams} {conventions : Conventions}
  {permitted : S3Request → Prop}

/-- The lines of a page are lines of the listing that was asked for. -/
def FromStore (store : Store) : (request : S3Request) → request.Answer → Prop
  | .listObjectsV2 params, page =>
      (∀ object ∈ page.contents, .object object ∈ store.listing params) ∧
        ∀ commonPrefix ∈ page.commonPrefixes, .group commonPrefix ∈ store.listing params
  | _, _ => True

theorem remaining_subset {lines : List Listed}
    (remaining : store.remaining conventions params = .ok lines) :
    ∀ line ∈ lines, line ∈ store.listing params := by
  intro line member
  unfold Store.remaining at remaining
  split at remaining
  · obtain rfl := Except.ok.inj remaining
    exact member
  · split at remaining
    · cases remaining
    · obtain rfl := Except.ok.inj remaining
      exact (List.mem_filter.mp member).1

theorem object?_some {line : Listed} {object : S3Object} (shown : line.object? = some object) :
    line = .object object := by
  cases line with
  | object found => exact congrArg _ (Option.some.inj shown)
  | group commonPrefix => cases shown

theorem group?_some {line : Listed} {commonPrefix : Str} (shown : line.group? = some commonPrefix) :
    line = .group commonPrefix := by
  cases line with
  | object found => cases shown
  | group found => exact congrArg _ (Option.some.inj shown)

theorem answer_fromStore {page : ListPage} {after : Store}
    (answered : store.answer conventions (.listObjectsV2 params) = (.ok page, after)) :
    FromStore store (.listObjectsV2 params) page ∧ after = store := by
  obtain ⟨shown, rfl⟩ := Prod.mk.inj answered
  refine ⟨?_, rfl⟩
  cases remaining : store.remaining conventions params with
  | error exc => simp [Store.listObjectsV2, remaining, Except.map] at shown
  | ok lines =>
      obtain rfl : listPage conventions (pageSize params) lines = page := by
        simp only [Store.listObjectsV2, remaining] at shown
        exact Except.ok.inj shown
      have inside := remaining_subset remaining
      constructor
      · intro object member
        obtain ⟨line, taken, seen⟩ := List.mem_filterMap.mp member
        exact object?_some seen ▸ inside line (List.mem_of_mem_take taken)
      · intro commonPrefix member
        obtain ⟨line, taken, seen⟩ := List.mem_filterMap.mp member
        exact group?_some seen ▸ inside line (List.mem_of_mem_take taken)

/-- What holds for all faithful answers to a program that only lists holds for its run
on a store that answers so, and the store stays as it is. -/
theorem run_of_answers {program : S3Program α} {post : α → Prop} {world after : World} {value : α}
    {faithful : (request : S3Request) → request.Answer → Prop}
    (sends : program.Sends permitted faithful post)
    (lists : ∀ request, permitted request → ∃ params, request = .listObjectsV2 params)
    (answers : ∀ params page, permitted (.listObjectsV2 params) →
      world.store.listObjectsV2 conventions params = .ok page →
      faithful (.listObjectsV2 params) page)
    (ran : program.run conventions world = (.ok value, after)) :
    post value ∧ after.store = world.store := by
  have whole := @Program.run_of_wp _ _ _ _ (handle conventions) (onlyS3 permitted)
    (faithfulReply faithful) (fun reached => reached.store = world.store)
    (fun effect reached allowed same => ?_) _ program sends world rfl
  · have ran' : Program.run (handle conventions) program world = (.ok value, after) := ran
    rw [ran'] at whole
    exact ⟨whole.1 value rfl, whole.2⟩
  · cases effect with
    | getClient roleName =>
        refine ⟨trivial, ?_⟩
        cases fault : reached.faults 0 with
        | some exc =>
            rw [client_fails fault]
            exact same
        | none =>
            rw [client_built fault]
            exact same
    | invalidateClient roleName => exact ⟨trivial, same⟩
    | s3 request =>
        obtain ⟨params, rfl⟩ := lists request allowed
        cases fault : reached.faults 0 with
        | some exc =>
            rw [handle_fails fault]
            refine ⟨fun _ claim => ?_, same⟩
            cases claim
        | none =>
            rw [handle_answers fault, same]
            exact ⟨fun page answered => answers params page allowed answered, rfl⟩

theorem run_of_sends {program : S3Program α} {post : α → Prop} {world after : World} {value : α}
    (sends : program.Sends permitted (FromStore world.store) post)
    (lists : ∀ request, permitted request → ∃ params, request = .listObjectsV2 params)
    (ran : program.run conventions world = (.ok value, after)) :
    post value ∧ after.store = world.store :=
  run_of_answers sends lists (fun _ page _ answered =>
    (@answer_fromStore _ _ _ page _ (Prod.ext answered rfl)).1) ran

end Answers

end S3Manager.Storage
