import S3Manager.Storage.RecursiveWalk

/-! Following the tokens of `list_objects_recursive_for_role` to the end: when the
calls return every file exactly once, and say truthfully whether more remain. -/

set_option autoImplicit false

namespace S3Manager.Storage

open Python Access Library

section Follow

variable (unicode : Unicode) (config : Dict) (pages : Nat) (role : Option Str)
  (bucket searchPrefix : Str) (user : UserDict) (sizes : Nat → Int) (maxPageSize : Int)

/-- Call the helper with the token of the answer before, until an answer is not
truncated. The first argument bounds the number of calls. -/
def followListing : Nat → Nat → Option Str → S3Program (List RecursiveListing)
  | 0, _, _ => S3Program.raise .outOfPages []
  | calls + 1, call, token => do
      let answer ← listObjectsRecursiveForRole unicode config pages role bucket searchPrefix user
        (sizes call) token maxPageSize
      if answer.isTruncated then do
        let rest ← followListing calls (call + 1) answer.nextContinuationToken
        pure (answer :: rest)
      else pure [answer]

end Follow

section Promise

def answerKeys (answer : RecursiveListing) : List Str :=
  answer.files.map KeyEntry.key

def plainKeys (objects : List S3Object) : List Str :=
  (plainObjects objects).map S3Object.key

/-- What the calls promise about the files below the path. -/
structure ExactlyOnce (sizes : Nat → Int) (objects : List S3Object)
    (answers : List RecursiveListing) : Prop where
  complete : (answers.flatMap answerKeys).Perm (plainKeys objects)
  bounded : ∀ call answer, answers[call]? = some answer → (answer.files.length : Int) ≤ sizes call
  honest : ∀ call answer, answers[call]? = some answer →
    (answer.isTruncated = true ↔
      ∃ key ∈ plainKeys objects, key ∉ (answers.take (call + 1)).flatMap answerKeys)
  resumable : ∀ answer ∈ answers, answer.isTruncated = true → answer.nextContinuationToken ≠ none

/-- The number of files that a call asks for, within the page size allowed. -/
def wantedBy (sizes : Nat → Int) (maxPageSize : Int) (call : Nat) : Nat :=
  effectiveMaxKeys (sizes call) maxPageSize

/-- The objects before the border behind so many pages of a call. -/
def readBefore (wanted count : Nat) (objects : List S3Object) : List S3Object :=
  objects.take (count * min wanted 1000)

def leftBehind (wanted count : Nat) (objects : List S3Object) : List S3Object :=
  objects.drop (count * min wanted 1000)

/-- The run of calls on the remaining objects in which the first page border with
enough files before it has no file too many, and every border that a call stops at
has files behind it. -/
inductive CleanFrom (wanted : Nat → Nat) : Nat → List S3Object → Prop where
  | last {call : Nat} {objects : List S3Object} :
      (plainObjects objects).length ≤ wanted call →
      (∀ count, count * min (wanted call) 1000 ≤ objects.length →
        (plainObjects (readBefore (wanted call) count objects)).length < wanted call) →
      CleanFrom wanted call objects
  | next {call : Nat} {objects : List S3Object} (count : Nat) :
      (∀ fewer < count,
        (plainObjects (readBefore (wanted call) fewer objects)).length < wanted call) →
      (plainObjects (readBefore (wanted call) count objects)).length = wanted call →
      plainObjects (leftBehind (wanted call) count objects) ≠ [] →
      CleanFrom wanted (call + 1) (leftBehind (wanted call) count objects) →
      CleanFrom wanted call objects

end Promise

section Keys

variable {sizes : Nat → Int} {objects later : List S3Object} {answer : RecursiveListing}
  {rest : List RecursiveListing}

theorem plainKeys_nodup (ascending : Paging.Ascending S3Object.key objects) :
    (plainKeys objects).Nodup := by
  refine List.pairwise_map.mpr ((ascending.filter _).imp fun below => ne_of_lt below)

theorem plainKeys_split (count : Nat) (objects : List S3Object) :
    plainKeys objects = plainKeys (objects.take count) ++ plainKeys (objects.drop count) := by
  rw [plainKeys, plainKeys, plainKeys, ← List.map_append, ← plainObjects_append,
    List.take_append_drop]

/-- The first answer leaves the rest of the promise to the other answers. -/
theorem exactlyOnce_cons (nodup : (plainKeys objects).Nodup)
    (split : plainKeys objects = answerKeys answer ++ plainKeys later) :
    ExactlyOnce sizes objects (answer :: rest) ↔
      ((answer.files.length : Int) ≤ sizes 0 ∧
        (answer.isTruncated = true ↔ plainKeys later ≠ []) ∧
        (answer.isTruncated = true → answer.nextContinuationToken ≠ none)) ∧
      ExactlyOnce (fun call => sizes (call + 1)) later rest := by
  have apart : ∀ key ∈ plainKeys later, key ∉ answerKeys answer := by
    rw [split] at nodup
    exact fun key inLater inAnswer => List.disjoint_of_nodup_append nodup inAnswer inLater
  have remains (keys : List Str) : (∃ key ∈ plainKeys objects, key ∉ answerKeys answer ++ keys) ↔
      ∃ key ∈ plainKeys later, key ∉ keys := by
    simp only [split, List.mem_append, not_or]
    constructor
    · rintro ⟨key, inAnswer | inLater, notAnswer, notKeys⟩
      · exact absurd inAnswer notAnswer
      · exact ⟨key, inLater, notKeys⟩
    · rintro ⟨key, inLater, notKeys⟩
      exact ⟨key, .inr inLater, apart key inLater, notKeys⟩
  have first : (∃ key ∈ plainKeys objects, key ∉ answerKeys answer) ↔ plainKeys later ≠ [] := by
    have any := remains []
    simp only [List.append_nil, List.not_mem_nil, not_false_eq_true, and_true] at any
    exact any.trans ⟨fun ⟨_, member⟩ => List.ne_nil_of_mem member, List.exists_mem_of_ne_nil _⟩
  constructor
  · intro once
    refine ⟨⟨once.bounded 0 answer rfl, ?_, once.resumable answer List.mem_cons_self⟩, ?_, ?_, ?_, ?_⟩
    · have honest := once.honest 0 answer rfl
      simp only [Nat.zero_add, List.take_succ_cons, List.take_zero, List.flatMap_cons,
        List.flatMap_nil, List.append_nil] at honest
      exact honest.trans first
    · have complete := once.complete
      rw [List.flatMap_cons, split] at complete
      exact (List.perm_append_left_iff _).mp complete
    · exact fun call other found => once.bounded (call + 1) other found
    · intro call other found
      have honest := once.honest (call + 1) other found
      rw [List.take_succ_cons, List.flatMap_cons] at honest
      exact honest.trans (remains _)
    · exact fun other member => once.resumable other (List.mem_cons_of_mem _ member)
  · rintro ⟨⟨bounded, truncated, token⟩, once⟩
    refine ⟨?_, fun call other found => ?_, fun call other found => ?_, fun other member => ?_⟩
    · rw [List.flatMap_cons, split]
      exact (List.perm_append_left_iff _).mpr once.complete
    · cases call with
      | zero =>
          obtain rfl := Option.some.inj found
          exact bounded
      | succ call => exact once.bounded call other found
    · cases call with
      | zero =>
          obtain rfl := Option.some.inj found
          simp only [Nat.zero_add, List.take_succ_cons, List.take_zero, List.flatMap_cons,
            List.flatMap_nil, List.append_nil]
          exact truncated.trans first.symm
      | succ call =>
          rw [List.take_succ_cons, List.flatMap_cons]
          exact (once.honest call other found).trans (remains _).symm
    · rcases List.mem_cons.mp member with rfl | later
      · exact token
      · exact once.resumable other later

end Keys

section Calls

variable {unicode : Unicode} {config : Dict} {pages : Nat} {role : Option Str}
  {bucket searchPrefix : Str} {user : UserDict} {sizes : Nat → Int} {maxPageSize : Int}
  {conventions : Conventions} {store : Store} {listing : ListEntry}

/-- A call with this token goes on with these objects. -/
def ResumesAt (conventions : Conventions) (store : Store) (bucket path : Str)
    (token : Option Str) (objects : List S3Object) : Prop :=
  ∀ maxKeys, store.remaining conventions (recursiveParams bucket path maxKeys token) =
    .ok (objects.map .object)

theorem resumesAt_start (path : Str) :
    ResumesAt conventions store bucket path none
      (store.objectsUnder bucket (folderPrefix path)) := by
  intro maxKeys
  have plain : store.listing (recursiveParams bucket path maxKeys none) =
      (store.objectsUnder bucket (folderPrefix path)).map .object := listing_plain rfl
  simp only [Store.remaining, recursiveParams, Option.filter_none] at plain ⊢
  rw [plain]

theorem resumesAt_next {path next : Str} {maxKeys : Nat} {token : Option Str}
    {objects : List S3Object} (shown : next ≠ [])
    (remaining : store.remaining conventions
      ((recursiveParams bucket path maxKeys token).continueWith next) =
        .ok (objects.map .object)) :
    ResumesAt conventions store bucket path (some next) objects := by
  intro other
  have live : next.isEmpty = false := by simpa using shown
  rw [← remaining]
  simp only [recursiveParams, ListParams.continueWith, Option.filter_some, live, Bool.not_false,
    if_true]
  rfl

theorem effectiveMaxKeys_pos (maxKeys maxPageSize : Int) :
    0 < effectiveMaxKeys maxKeys maxPageSize := by
  unfold effectiveMaxKeys
  omega

theorem effectiveMaxKeys_le {maxKeys : Int} (asked : 1 ≤ maxKeys) (maxPageSize : Int) :
    (effectiveMaxKeys maxKeys maxPageSize : Int) ≤ maxKeys := by
  unfold effectiveMaxKeys
  omega

theorem reading_start {path : Str} {token : Option Str} {maxKeys : Nat} (asked : 0 < maxKeys)
    {objects : List S3Object} (resumes : ResumesAt conventions store bucket path token objects) :
    Reading conventions store (recursiveParams bucket path maxKeys token)
      (recursiveParams bucket path maxKeys token) maxKeys (min maxKeys 1000) objects 0 where
  live := by omega
  asked := rfl
  paged := by
    simp only [pageSize, recursiveParams, Option.getD_some]
    omega
  plain := rfl
  inside := .inr rfl
  same _ := rfl
  remaining := by simpa using resumes maxKeys
  room fewer small := by
    obtain rfl : fewer = 0 := Nat.le_zero.mp small
    simpa [plainObjects] using asked

theorem call_returns
    (prepared : prepareListPath unicode config role bucket user (rstripSlash searchPrefix) =
      .ok listing)
    (real : listing.virtualDirectories = none) {token : Option Str} {objects : List S3Object}
    (resumes : ResumesAt conventions store bucket listing.effectivePath token objects)
    (enough : objects.length ≤ pages + 1) (sizes : Nat → Int) (maxPageSize : Int) (call : Nat) :
    ∃ answer,
      CallAnswer conventions store
        (recursiveParams bucket listing.effectivePath (wantedBy sizes maxPageSize call) token)
        (wantedBy sizes maxPageSize call) (min (wantedBy sizes maxPageSize call) 1000)
        objects answer ∧
      Returns conventions (listObjectsRecursiveForRole unicode config pages role bucket
        searchPrefix user (sizes call) token maxPageSize) store answer store := by
  obtain ⟨answer, right, ran⟩ := recursivePages_returns
    (reading_start (effectiveMaxKeys_pos (sizes call) maxPageSize) resumes) pages (by omega)
  refine ⟨answer, right, ?_⟩
  have start : filesRead (min (effectiveMaxKeys (sizes call) maxPageSize) 1000) objects 0 = [] := by
    simp [filesRead, plainObjects]
  rw [start] at ran
  unfold listObjectsRecursiveForRole gatedListing
  rw [prepared]
  refine returns_bind (returns_pure listing) ?_
  rw [real]
  exact returns_retry ran

end Calls

section Runs

variable {unicode : Unicode} {config : Dict} {pages : Nat} {role : Option Str}
  {bucket searchPrefix : Str} {user : UserDict} {sizes : Nat → Int} {maxPageSize : Int}
  {conventions : Conventions} {store after : Store} {listing : ListEntry}

theorem answerKeys_cut (objects : List S3Object) (maxKeys : Nat) (truncated : Bool)
    (token : Option Str) :
    answerKeys (recursiveListing (((plainObjects objects).map S3Object.entry).take maxKeys)
      truncated token) = (plainKeys objects).take maxKeys := by
  simp only [answerKeys, recursiveListing, plainKeys, ← List.map_take, List.map_map]
  rfl

theorem answerKeys_short (objects : List S3Object) :
    answerKeys (recursiveListing ((plainObjects objects).map S3Object.entry) false none) =
      plainKeys objects := by
  simp only [answerKeys, recursiveListing, plainKeys, List.map_map]
  rfl

theorem length_plainKeys (objects : List S3Object) :
    (plainKeys objects).length = (plainObjects objects).length :=
  List.length_map _

theorem answerKeys_all {objects : List S3Object} {maxKeys : Nat}
    (few : (plainObjects objects).length ≤ maxKeys) (truncated : Bool) (token : Option Str) :
    answerKeys (recursiveListing (((plainObjects objects).map S3Object.entry).take maxKeys)
      truncated token) = plainKeys objects := by
  rw [answerKeys_cut, List.take_of_length_le]
  rw [length_plainKeys]
  exact few

theorem length_files (answer : RecursiveListing) :
    answer.files.length = (answerKeys answer).length :=
  (List.length_map _).symm

theorem plainObjects_take_le (count : Nat) (objects : List S3Object) :
    (plainObjects (objects.take count)).length ≤ (plainObjects objects).length :=
  ((List.take_sublist count objects).filter _).length_le

theorem exactlyOnce_last {objects : List S3Object} {answer : RecursiveListing}
    (all : answerKeys answer = plainKeys objects) (last : answer.isTruncated = false)
    (bounded : (answer.files.length : Int) ≤ sizes 0) : ExactlyOnce sizes objects [answer] where
  complete := by simp [all]
  bounded call other found := by
    cases call with
    | zero =>
        obtain rfl := Option.some.inj found
        exact bounded
    | succ call => cases found
  honest call other found := by
    cases call with
    | zero =>
        obtain rfl := Option.some.inj found
        simp [last, all]
    | succ call => cases found
  resumable other member more := by
    obtain rfl := List.mem_singleton.mp member
    rw [last] at more
    cases more

section Steps

variable {call calls : Nat} {token : Option Str} {answer : RecursiveListing}
  {answers rest : List RecursiveListing}
  (answered : Returns conventions (listObjectsRecursiveForRole unicode config pages role bucket
    searchPrefix user (sizes call) token maxPageSize) store answer store)

include answered

theorem follow_last (last : answer.isTruncated = false) :
    Returns conventions (followListing unicode config pages role bucket searchPrefix user sizes
      maxPageSize (calls + 1) call token) store [answer] store := by
  refine returns_bind answered ?_
  rw [last]
  exact returns_pure _

theorem follow_more (more : answer.isTruncated = true)
    (later : Returns conventions (followListing unicode config pages role bucket searchPrefix user
      sizes maxPageSize calls (call + 1) answer.nextContinuationToken) store rest store) :
    Returns conventions (followListing unicode config pages role bucket searchPrefix user sizes
      maxPageSize (calls + 1) call token) store (answer :: rest) store := by
  refine returns_bind answered ?_
  rw [more]
  exact returns_bind later (returns_pure _)

theorem follow_cases
    (ended : Returns conventions (followListing unicode config pages role bucket searchPrefix user
      sizes maxPageSize (calls + 1) call token) store answers store) :
    (answer.isTruncated = false ∧ answers = [answer]) ∨
      ∃ rest, answer.isTruncated = true ∧ answers = answer :: rest ∧
        Returns conventions (followListing unicode config pages role bucket searchPrefix user
          sizes maxPageSize calls (call + 1) answer.nextContinuationToken) store rest store := by
  have next := returns_of_bind answered ended
  cases more : answer.isTruncated with
  | false =>
      rw [more] at next
      exact .inl ⟨rfl, (Except.ok.inj (Prod.mk.inj next).1).symm⟩
  | true =>
      rw [more] at next
      obtain ⟨rest, between, later, built⟩ := returns_bind_cases next
      obtain ⟨same, left⟩ := Prod.mk.inj built
      obtain rfl : between = store := congrArg World.store left
      exact .inr ⟨rest, rfl, (Except.ok.inj same).symm, later⟩

end Steps

theorem clean_run
    (prepared : prepareListPath unicode config role bucket user (rstripSlash searchPrefix) =
      .ok listing)
    (real : listing.virtualDirectories = none) (asked : ∀ call, 1 ≤ sizes call)
    {call : Nat} {objects : List S3Object}
    (clean : CleanFrom (wantedBy sizes maxPageSize) call objects) {token : Option Str}
    (resumes : ResumesAt conventions store bucket listing.effectivePath token objects)
    (ascending : Paging.Ascending S3Object.key objects)
    (enough : objects.length ≤ pages + 1) :
    ∃ calls answers,
      Returns conventions (followListing unicode config pages role bucket searchPrefix user sizes
        maxPageSize calls call token) store answers store ∧
      ExactlyOnce (fun later => sizes (call + later)) objects answers := by
  induction clean generalizing token with
  | @last call objects few borders =>
      obtain ⟨answer, right, answered⟩ :=
        call_returns prepared real resumes enough sizes maxPageSize call
      have bounded : (wantedBy sizes maxPageSize call : Int) ≤ sizes call :=
        effectiveMaxKeys_le (asked call) maxPageSize
      cases right with
      | short wanting =>
          refine ⟨1, _, follow_last answered rfl, exactlyOnce_last (answerKeys_short _) rfl ?_⟩
          rw [length_files, answerKeys_short, length_plainKeys]
          simp only [Nat.add_zero]
          omega
      | cut count next fewer full stops resume =>
          have beyond : ¬ count * min (wantedBy sizes maxPageSize call) 1000 ≤ objects.length :=
            fun inside => absurd full (not_le.mpr (borders count inside))
          rw [List.take_of_length_le (not_le.mp beyond).le] at answered
          have keys := answerKeys_all few (decide (count *
            min (wantedBy sizes maxPageSize call) 1000 ≤ objects.length)) next
          refine ⟨1, _, follow_last answered (decide_eq_false beyond), exactlyOnce_last keys
            (decide_eq_false beyond) ?_⟩
          rw [length_files, keys, length_plainKeys]
          simp only [Nat.add_zero]
          omega
  | @next call objects count fewer exactly more _ ih =>
      obtain ⟨answer, right, answered⟩ :=
        call_returns prepared real resumes enough sizes maxPageSize call
      have bounded : (wantedBy sizes maxPageSize call : Int) ≤ sizes call :=
        effectiveMaxKeys_le (asked call) maxPageSize
      have inside : count * min (wantedBy sizes maxPageSize call) 1000 < objects.length := by
        by_contra beyond
        exact more (by rw [leftBehind, List.drop_of_length_le (not_lt.mp beyond)]; rfl)
      cases right with
      | short wanting =>
          have few := plainObjects_take_le (count * min (wantedBy sizes maxPageSize call) 1000)
            objects
          rw [readBefore] at exactly
          omega
      | cut other next fewer' full stops resume =>
          obtain rfl : other = count := by
            rcases Nat.lt_trichotomy other count with below | same | above
            · exact absurd full (not_le.mpr (fewer other below))
            · exact same
            · exact absurd (fewer' count above) (not_lt.mpr exactly.ge)
          cases next with
          | none => exact absurd (stops.mp rfl) (not_le.mpr inside)
          | some next =>
              obtain ⟨shown, remaining⟩ := resume next rfl
              obtain ⟨calls, rest, ran, once⟩ := ih (resumesAt_next shown remaining)
                ascending.drop (by rw [leftBehind, List.length_drop]; omega)
              rw [readBefore] at exactly
              have keys := answerKeys_all exactly.le (decide (other *
                min (wantedBy sizes maxPageSize call) 1000 ≤ objects.length)) (some next)
              have split := plainKeys_split (other * min (wantedBy sizes maxPageSize call) 1000)
                objects
              refine ⟨calls + 1, _, follow_more answered (decide_eq_true inside.le) ran,
                (exactlyOnce_cons (plainKeys_nodup ascending) (keys ▸ split)).mpr
                  ⟨⟨?_, ?_, fun _ => Option.some_ne_none _⟩, ?_⟩⟩
              · rw [length_files, keys, length_plainKeys, exactly]
                exact bounded
              · refine ⟨fun _ gone => ?_, fun _ => decide_eq_true inside.le⟩
                exact more (List.map_eq_nil_iff.mp gone)
              · rw [leftBehind] at once
                simpa only [Nat.add_assoc, Nat.add_comm 1] using once

theorem run_within
    (prepared : prepareListPath unicode config role bucket user (rstripSlash searchPrefix) =
      .ok listing)
    (real : listing.virtualDirectories = none) (calls : Nat) {call : Nat}
    {objects : List S3Object} {token : Option Str} {answers : List RecursiveListing}
    (resumes : ResumesAt conventions store bucket listing.effectivePath token objects)
    (enough : objects.length ≤ pages + 1)
    (ran : Returns conventions (followListing unicode config pages role bucket searchPrefix user
      sizes maxPageSize calls call token) store answers store)
    (resumable : ∀ answer ∈ answers,
      answer.isTruncated = true → answer.nextContinuationToken ≠ none) :
    ∀ key ∈ answers.flatMap answerKeys, key ∈ plainKeys objects := by
  induction calls generalizing call objects token answers with
  | zero => cases ran
  | succ calls ih =>
      obtain ⟨answer, right, answered⟩ :=
        call_returns prepared real resumes enough sizes maxPageSize call
      have first : ∀ key ∈ answerKeys answer, key ∈ plainKeys objects := by
        intro key member
        cases right with
        | short wanting =>
            rw [answerKeys_short] at member
            exact member
        | cut count next fewer full stops resume =>
            rw [answerKeys_cut] at member
            rw [plainKeys_split _ objects]
            exact List.mem_append_left _ (List.mem_of_mem_take member)
      rcases follow_cases answered ran with ⟨-, rfl⟩ | ⟨rest, more, rfl, later⟩
      · simpa using first
      · intro key member
        rw [List.flatMap_cons] at member
        rcases List.mem_append.mp member with here | there
        · exact first key here
        · have continued := resumable answer List.mem_cons_self more
          cases right with
          | short wanting => cases more
          | cut count next fewer full stops resume =>
              cases next with
              | none => exact absurd rfl continued
              | some next =>
                  obtain ⟨shown, remaining⟩ := resume next rfl
                  rw [plainKeys_split _ objects]
                  exact List.mem_append_right _ (ih (resumesAt_next shown remaining)
                    (by rw [List.length_drop]; omega) later
                    (fun other inRest => resumable other (List.mem_cons_of_mem _ inRest)) key there)

/-- A run that keeps the promise is clean. -/
theorem clean_of_once
    (prepared : prepareListPath unicode config role bucket user (rstripSlash searchPrefix) =
      .ok listing)
    (real : listing.virtualDirectories = none) (calls : Nat) {call : Nat}
    {objects : List S3Object} {token : Option Str} {answers : List RecursiveListing}
    (resumes : ResumesAt conventions store bucket listing.effectivePath token objects)
    (ascending : Paging.Ascending S3Object.key objects)
    (enough : objects.length ≤ pages + 1)
    (ran : Returns conventions (followListing unicode config pages role bucket searchPrefix user
      sizes maxPageSize calls call token) store answers store)
    (once : ExactlyOnce (fun later => sizes (call + later)) objects answers) :
    CleanFrom (wantedBy sizes maxPageSize) call objects := by
  induction calls generalizing call objects token answers with
  | zero => cases ran
  | succ calls ih =>
      obtain ⟨answer, right, answered⟩ :=
        call_returns prepared real resumes enough sizes maxPageSize call
      have nodup := plainKeys_nodup ascending
      cases right with
      | short wanting =>
          refine .last wanting.le fun count _ => ?_
          exact (plainObjects_take_le _ objects).trans_lt wanting
      | cut count next fewer full stops resume =>
          rcases follow_cases answered ran with ⟨last, rfl⟩ | ⟨rest, more, rfl, later⟩
          · -- The last page was short, so no border behind it was reached.
            have beyond : ¬ count * min (wantedBy sizes maxPageSize call) 1000 ≤ objects.length :=
              of_decide_eq_false last
            have total := once.complete.length_eq
            rw [List.flatMap_singleton, answerKeys_cut,
              List.take_of_length_le (not_le.mp beyond).le, List.length_take,
              length_plainKeys] at total
            refine .last (by omega) fun other inside => fewer other ?_
            by_contra behind
            exact beyond ((Nat.mul_le_mul_right _ (not_lt.mp behind)).trans inside)
          · have continued := once.resumable _ List.mem_cons_self more
            cases next with
            | none => exact absurd rfl continued
            | some next =>
                obtain ⟨shown, remaining⟩ := resume next rfl
                have resumes' := resumesAt_next shown remaining
                have room : (objects.drop
                    (count * min (wantedBy sizes maxPageSize call) 1000)).length ≤ pages + 1 := by
                  rw [List.length_drop]
                  omega
                have split := plainKeys_split
                  (count * min (wantedBy sizes maxPageSize call) 1000) objects
                -- What the other calls return lies behind the border, so nothing before
                -- the border can have been cut off.
                have within := run_within prepared real calls resumes' room later
                  fun other inRest => once.resumable other (List.mem_cons_of_mem _ inRest)
                have complete := once.complete
                rw [List.flatMap_cons, answerKeys_cut] at complete
                have restNodup : (rest.flatMap answerKeys).Nodup :=
                  (List.nodup_append.mp (complete.nodup_iff.mpr nodup)).2.1
                have few := (List.subperm_of_subset restNodup within).length_le
                have total := complete.length_eq
                rw [split, List.length_append, List.length_append, List.length_take,
                  length_plainKeys] at total
                have exactly : (plainObjects (objects.take
                    (count * min (wantedBy sizes maxPageSize call) 1000))).length =
                      wantedBy sizes maxPageSize call := by omega
                have keys := answerKeys_all exactly.le (decide (count *
                  min (wantedBy sizes maxPageSize call) 1000 ≤ objects.length)) (some next)
                obtain ⟨⟨-, truncated, -⟩, once'⟩ :=
                  (exactlyOnce_cons nodup (keys ▸ split)).mp once
                refine .next count fewer exactly ?_ (ih resumes' ascending.drop room later ?_)
                · intro gone
                  exact truncated.mp more (by rw [plainKeys]; exact congrArg _ gone)
                · have moved : ExactlyOnce (fun later => sizes (call + (later + 1)))
                      (leftBehind (wantedBy sizes maxPageSize call) count objects) rest := once'
                  simpa only [Nat.add_assoc, Nat.add_comm 1] using moved

end Runs

section Claim

variable {unicode : Unicode} {config : Dict} {role : Option Str} {bucket searchPrefix : Str}
  {user : UserDict} {conventions : Conventions} {store : Store} {listing : ListEntry}

/-- Following the tokens to the end keeps the promise. -/
def KeepsPromise (unicode : Unicode) (config : Dict) (pages : Nat) (role : Option Str)
    (bucket searchPrefix path : Str) (user : UserDict) (sizes : Nat → Int) (maxPageSize : Int)
    (conventions : Conventions) (store : Store) : Prop :=
  ∃ calls answers,
    Returns conventions (followListing unicode config pages role bucket searchPrefix user sizes
      maxPageSize calls 0 none) store answers store ∧
    ExactlyOnce sizes (store.objectsUnder bucket (folderPrefix path)) answers

/-- The calls return every file once and are honest about it exactly when no call
stops inside a page of S3, or at the end of a full last page, or before markers only. -/
theorem keepsPromise_iff (pages : Nat) (sizes : Nat → Int) (maxPageSize : Int)
    (prepared : prepareListPath unicode config role bucket user (rstripSlash searchPrefix) =
      .ok listing)
    (real : listing.virtualDirectories = none) (asked : ∀ call, 1 ≤ sizes call)
    (enough : (store.objectsUnder bucket (folderPrefix listing.effectivePath)).length ≤ pages) :
    KeepsPromise unicode config pages role bucket searchPrefix listing.effectivePath user sizes
        maxPageSize conventions store ↔
      CleanFrom (wantedBy sizes maxPageSize) 0
        (store.objectsUnder bucket (folderPrefix listing.effectivePath)) := by
  have ascending := objectsUnder_ascending store bucket (folderPrefix listing.effectivePath)
  have start := @resumesAt_start bucket conventions store listing.effectivePath
  have shift : (fun later => sizes (0 + later)) = sizes := by
    funext later
    rw [Nat.zero_add]
  constructor
  · rintro ⟨calls, answers, ran, once⟩
    exact clean_of_once prepared real calls start ascending (Nat.le_succ_of_le enough) ran
      (shift.symm ▸ once)
  · intro clean
    obtain ⟨calls, answers, ran, once⟩ := clean_run prepared real asked clean start ascending
      (Nat.le_succ_of_le enough)
    exact ⟨calls, answers, ran, shift ▸ once⟩

/-- A role without restrictions. -/
def listerConfig : Dict :=
  [(lit "roles", .arr [.obj [(lit "name", .str (lit "team")), (lit "type", .str (lit "default"))]])]

def lister : UserDict where
  isAdmin := false
  allowedRoles := [lit "team"]
  defaultRole := none

def oneByte : Stored where
  body := [1]
  contentType := none
  lastModified := []

/-- A folder with its marker and four files. -/
def folderStore : Store where
  bucketNames := [lit "data"]
  objects _ := ((((OrderedMap.empty.insert (lit "d/") ⟨[], none, []⟩).insert (lit "d/a")
    oneByte).insert (lit "d/b") oneByte).insert (lit "d/c") oneByte).insert (lit "d/e") oneByte
  now := []

def folderListing : ListEntry where
  effectivePath := ['d']
  virtualDirectories := none
  validatedRole := some (lit "team")

theorem folder_prepared :
    prepareListPath Unicode.ascii listerConfig (some (lit "team")) (lit "data") lister
      (rstripSlash (lit "d/")) = .ok folderListing := rfl

theorem keepsPromise_large :
    KeepsPromise Unicode.ascii listerConfig 9 (some (lit "team")) (lit "data") (lit "d/") ['d']
        lister (fun _ => 100) 10000 Conventions.plain folderStore ↔
      CleanFrom (wantedBy (fun _ => 100) 10000) 0
        (folderStore.objectsUnder (lit "data") (folderPrefix ['d'])) :=
  keepsPromise_iff 9 (fun _ => 100) 10000 folder_prepared rfl (fun _ => by decide) (by decide)

/-- Two files at a time, the second call starts behind a file that none returned. -/
theorem two_at_a_time_loses :
    ¬ ∀ (unicode : Unicode) (config : Dict) (pages : Nat) (role : Option Str)
        (bucket searchPrefix : Str) (user : UserDict) (sizes : Nat → Int) (maxPageSize : Int)
        (conventions : Conventions) (store : Store) (listing : ListEntry),
        prepareListPath unicode config role bucket user (rstripSlash searchPrefix) = .ok listing →
        listing.virtualDirectories = none → (∀ call, 1 ≤ sizes call) →
        (store.objectsUnder bucket (folderPrefix listing.effectivePath)).length ≤ pages →
        KeepsPromise unicode config pages role bucket searchPrefix listing.effectivePath user sizes
          maxPageSize conventions store := by
  intro all
  obtain ⟨calls, answers, ran, once⟩ := all Unicode.ascii listerConfig 9 (some (lit "team"))
    (lit "data") (lit "d/") lister (fun _ => 2) 10000 Conventions.plain folderStore folderListing
    folder_prepared rfl (fun _ => by decide) (by decide)
  have clean : CleanFrom (wantedBy (fun _ => 2) 10000) 0 (folderStore.objectsUnder (lit "data")
      (folderPrefix ['d'])) :=
    clean_of_once folder_prepared rfl calls (resumesAt_start _)
      (objectsUnder_ascending folderStore (lit "data") _) (by decide) ran once
  cases clean with
  | last few _ => exact absurd few (by decide)
  | next count fewer exactly _ _ =>
      -- Two pages hold three files, and one page holds one.
      rcases Nat.lt_or_ge 2 count with above | below
      · exact absurd (fewer 2 above) (by decide)
      · obtain rfl | rfl | rfl : count = 0 ∨ count = 1 ∨ count = 2 := by omega
        · exact absurd exactly (by decide)
        · exact absurd exactly (by decide)
        · exact absurd exactly (by decide)

end Claim

end S3Manager.Storage
