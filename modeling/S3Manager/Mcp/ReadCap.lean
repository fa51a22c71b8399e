import S3Manager.Mcp.LosslessRead
import S3Manager.Storage.SharedStore

/-! The read cap of `read_file` beside another client that overwrites the object. The size is
checked on the HEAD and nothing is checked on the bodies, so the cap holds beside a client that
keeps the size of the object in between, or that puts nothing but what does no harm. -/

set_option autoImplicit false

namespace S3Manager.Mcp

open Python Access Storage Library

section Property

variable (config : Dict) (runtime : TextRuntime) (token : Token) (forceText : Bool)

def Within (size : Nat) : Prop := exceedsReadCap config token size = .ok false

/-- The text that a body is read as. -/
def textOf (raw : Bytes) : Option Str :=
  if forceText then some (runtime.decodeReplacing (stripBom raw)) else utf8Decode (stripBom raw)

/-- No more than the cap is loaded at once, and what is returned is the body that was loaded
last, under its own size. -/
structure Capped (result : Result ReadAnswer) (seen : List Sighting) : Prop where
  loads : ∀ ranged stored loaded, .load ranged stored loaded ∈ seen →
    Within config token loaded.length
  reports : ∀ answer, result = .ok answer → ∃ stored raw,
    seen.getLast? = some (.load false stored raw) ∧
      textOf runtime forceText raw = some answer.content ∧ Within config token raw.length ∧
      answer.size = raw.length

/-- What a GET asks for of an object. -/
def asked (ranged : Bool) (left : Bytes) : Nat := if ranged then min 8192 left.length else left.length

/-- An object of another size than at the HEAD: what the GET asks for of it fits the cap, and the
whole of it is no text. -/
structure Harmless (ranged : Bool) (left : Bytes) : Prop where
  fits : Within config token (asked ranged left)
  textless : ranged = false → textOf runtime forceText left = none

/-- Between the HEAD and a GET the other client leaves the object with its size, or a harmless one
instead. -/
def Steady (interleaving : List Sighting) : Prop :=
  ∀ before first between ranged stored loaded after,
    interleaving = before ++ .head first :: (between ++ .load ranged stored loaded :: after) →
      (leftBy first between).length = first.length ∨
        Harmless config runtime token forceText ranged (leftBy first between)

/-- All that the other client puts between the HEAD and a GET has the size of the object. -/
def KeepsSize (interleaving : List Sighting) : Prop :=
  ∀ before first between ranged stored loaded after,
    interleaving = before ++ .head first :: (between ++ .load ranged stored loaded :: after) →
      ∀ body, .put body ∈ between → body.length = first.length

end Property

section Runs

/-- A smaller size fits as well. -/
theorem within_le {config : Dict} {token : Token} {size smaller : Nat}
    (fits : Within config token size) (below : smaller ≤ size) : Within config token smaller := by
  obtain ⟨limit, capped, within⟩ := exceedsReadCap_ok fits
  have enough : exceeds limit smaller = false := by
    have sizes : (smaller : Rat) ≤ size := Rat.natCast_le_natCast.mpr below
    unfold exceeds at within ⊢
    split at within
    · simp only [decide_eq_false_iff_not, not_lt] at within ⊢
      omega
    · simp only [decide_eq_false_iff_not, not_lt] at within ⊢
      exact Nat.le_trans below within
    · simp only [decide_eq_false_iff_not, not_lt] at within ⊢
      exact sizes.trans within
    · exact within
    · exact within
  rw [Within, exceedsReadCap, capped]
  exact congrArg Except.ok enough

variable {conventions : Conventions} {unicode : Unicode} {config : Dict} {runtime : TextRuntime}
  {token : Token} {role : Option Str} {bucket path shared key : Str} {user : UserDict}
  {forceText : Bool}

/-- The sightings before the body: a sample or nothing. -/
inductive Opening : List Sighting → Prop where
  | named : Opening []
  | sampled (stored : Bytes) : Opening [.load true stored (stored.take 8192)]

/-- How a run goes on after a HEAD that gave a size within the cap. -/
inductive Continues (runtime : TextRuntime) (forceText : Bool) (size : Nat) :
    Result ReadAnswer → List Sighting → Prop where
  | stopped {exc : PyError} {opening : List Sighting} :
      Opening opening → Continues runtime forceText size (.error exc) opening
  | undecoded {exc : PyError} {opening : List Sighting} {raw : Bytes} :
      Opening opening → textOf runtime forceText raw = none →
      Continues runtime forceText size (.error exc) (opening ++ [.load false raw raw])
  | answered {answer : ReadAnswer} {opening : List Sighting} {raw : Bytes} :
      Opening opening → textOf runtime forceText raw = some answer.content → answer.size = size →
      Continues runtime forceText size (.ok answer) (opening ++ [.load false raw raw])

/-- How a whole run goes. -/
inductive Goes (config : Dict) (runtime : TextRuntime) (token : Token) (forceText : Bool) :
    Result ReadAnswer → List Sighting → Prop where
  | unread {exc : PyError} : Goes config runtime token forceText (.error exc) []
  | refused {exc : PyError} {first : Bytes} :
      Goes config runtime token forceText (.error exc) [.head first]
  | sized {result : Result ReadAnswer} {first : Bytes} {rest : List Sighting} :
      Within config token first.length → Continues runtime forceText first.length result rest →
      Goes config runtime token forceText result (.head first :: rest)

theorem decodeRaw_text {size : Nat} {raw : Bytes} :
    (∃ content, textOf runtime forceText raw = some content ∧
        decodeRaw runtime forceText size raw = .ok content) ∨
      textOf runtime forceText raw = none ∧
        ∃ exc, decodeRaw runtime forceText size raw = .error exc := by
  unfold textOf decodeRaw
  cases forceText with
  | true => exact .inl ⟨_, rfl, rfl⟩
  | false =>
      cases utf8Decode (stripBom raw) with
      | none => exact .inr ⟨rfl, _, rfl⟩
      | some content => exact .inl ⟨content, rfl, rfl⟩

theorem detect_opens (size : Nat) :
    Program.Traces (sharedHandle conventions shared key) (observe shared key)
      (fun _ seen => Opening seen)
      (detectText unicode config role bucket path user forceText size) := by
  unfold detectText
  split_ifs with forced
  · exact fun _ => .named
  · cases classifyText unicode config path with
    | error exc => exact fun _ => .named
    | ok classified =>
        rw [ofResult_ok_bind]
        obtain ⟨source, confidence⟩ := classified
        cases source with
        | binaryKnown | extension | extensionless => exact fun _ => .named
        | sniff =>
            refine Program.traces_bind (range_reads 0 8191) fun result seen sampled => ?_
            cases result with
            | error exc =>
                obtain rfl : seen = [] := sampled
                exact fun _ => .named
            | ok sample =>
                obtain ⟨stored, rfl, rfl⟩ := sampled
                dsimp only
                split_ifs <;> exact fun _ => .sampled stored

theorem respond_continues {limit : Json} {size : Nat} (fits : exceeds limit size = false) :
    Program.Traces (sharedHandle conventions shared key) (observe shared key)
      (Continues runtime forceText size)
      (respondSized unicode config runtime role bucket path user forceText limit size) := by
  unfold respondSized
  rw [fits, if_neg Bool.false_ne_true]
  refine traces_then (detect_opens size) (fun exc opening opens => .stopped opens)
    fun detection opening opens => ?_
  refine traces_then whole_reads (fun exc seen nothing => ?_) fun raw seen loaded => ?_
  · obtain rfl : seen = [] := nothing
    rw [List.append_nil]
    exact .stopped opens
  · obtain rfl : seen = [.load false raw raw] := loaded
    obtain ⟨content, text, decoded⟩ | ⟨text, exc, failed⟩ :=
      @decodeRaw_text runtime forceText size raw
    · rw [decoded]
      exact fun _ => .answered opens text rfl
    · rw [failed]
      exact fun _ => .undecoded opens text

theorem headSize_reads :
    (headSize unicode config role bucket path user).Reads conventions shared key
      fun size seen => ∃ stored, size = stored.length ∧ seen = [.head stored] :=
  reads_mapError head_reads

theorem read_goes :
    Program.Traces (sharedHandle conventions shared key) (observe shared key)
      (Goes config runtime token forceText)
      (readFileResponse unicode config runtime token role bucket path user forceText) := by
  refine traces_mapError ?_
  cases capped : effectiveMax config token with
  | error exc => exact fun _ _ => .unread
  | ok limit =>
      rw [ofResult_ok_bind]
      refine traces_then headSize_reads (fun exc seen nothing => ?_) fun size seen sized => ?_
      · obtain rfl : seen = [] := nothing
        exact fun _ => .unread
      · obtain ⟨stored, rfl, rfl⟩ := sized
        cases fits : exceeds limit stored.length with
        | true =>
            unfold respondSized
            rw [fits, if_pos rfl]
            exact fun _ _ => .refused
        | false =>
            have within : Within config token stored.length := by
              rw [Within, exceedsReadCap, capped]
              exact congrArg Except.ok fits
            refine Program.traces_mono (respond_continues fits) fun result rest goes => ?_
            cases goes with
            | stopped opens => exact fun _ => .sized within (.stopped opens)
            | undecoded opens text => exact fun _ => .sized within (.undecoded opens text)
            | answered opens text size => exact .sized within (.answered opens text size)

/-- The tool only reads the object it is asked for. -/
theorem read_makes :
    Makes (OnlyReads bucket path)
      (readFileResponse unicode config runtime token role bucket path user forceText) := by
  refine makes_mapError (makes_check fun limit _ => ?_)
  refine makes_bind (makes_mapError (makes_gatedPart ⟨rfl, rfl⟩)) fun size => ?_
  unfold respondSized
  split
  · exact makes_ofResult _
  · refine makes_bind ?_ fun detection => ?_
    · unfold detectText
      split
      · exact makes_pure _
      · refine makes_check fun classified _ => ?_
        split
        · exact makes_ofResult _
        · exact makes_pure _
        · exact makes_pure _
        · refine makes_bind (makes_gatedPart ⟨rfl, rfl⟩) fun sample => ?_
          split
          · exact makes_pure _
          · exact makes_ofResult _
    · exact makes_bind (makes_gatedPart ⟨rfl, rfl⟩) fun raw =>
        makes_check fun content _ => makes_pure _

theorem Opening.no_head {opening : List Sighting} (opens : Opening opening) (body : Bytes) :
    .head body ∉ opening := by
  cases opens <;> simp

theorem Opening.no_body {opening : List Sighting} (opens : Opening opening) (stored loaded : Bytes) :
    .load false stored loaded ∉ opening := by
  cases opens <;> simp

/-- A GET gives what is stored: the part it asks for, or all of it. -/
theorem Goes.loaded {result : Result ReadAnswer} {seen : List Sighting}
    (goes : Goes config runtime token forceText result seen) {ranged : Bool} {stored loaded : Bytes}
    (sighted : .load ranged stored loaded ∈ seen) :
    loaded = if ranged then stored.take 8192 else stored := by
  have opening_loaded {opening : List Sighting} (opens : Opening opening)
      (member : .load ranged stored loaded ∈ opening) :
      loaded = if ranged then stored.take 8192 else stored := by
    cases opens with
    | named => simp at member
    | sampled first =>
        obtain ⟨rfl, rfl, rfl⟩ : ranged = true ∧ stored = first ∧ loaded = first.take 8192 := by
          simpa using member
        rfl
  have body_loaded {opening : List Sighting} {raw : Bytes} (opens : Opening opening)
      (member : .load ranged stored loaded ∈ opening ++ [.load false raw raw]) :
      loaded = if ranged then stored.take 8192 else stored := by
    cases List.mem_append.mp member with
    | inl early => exact opening_loaded opens early
    | inr last =>
        obtain ⟨rfl, rfl, rfl⟩ : ranged = false ∧ stored = raw ∧ loaded = raw := by
          simpa using last
        rfl
  cases goes with
  | unread => simp at sighted
  | refused => simp at sighted
  | sized within continues =>
      have later := (List.mem_cons.mp sighted).resolve_left (by simp)
      cases continues with
      | stopped opens => exact opening_loaded opens later
      | undecoded opens text => exact body_loaded opens later
      | answered opens text size => exact body_loaded opens later

theorem last_sighted (first last : Sighting) (opening : List Sighting) :
    (first :: (opening ++ [last])).getLast? = some last := by
  rw [← List.cons_append, List.getLast?_concat]

/-- A run that loads a text answers it, under the size that the HEAD gave. -/
theorem Goes.answer {result : Result ReadAnswer} {seen : List Sighting}
    (goes : Goes config runtime token forceText result seen) {first stored loaded : Bytes}
    (headed : .head first ∈ seen) (fetched : .load false stored loaded ∈ seen)
    (text : (textOf runtime forceText stored).isSome = true) :
    ∃ answer, result = .ok answer ∧ answer.size = first.length ∧
      seen.getLast? = some (.load false stored stored) := by
  cases goes with
  | unread => simp at headed
  | refused => simp at fetched
  | @sized result body rest within continues =>
      have later := (List.mem_cons.mp fetched).resolve_left (by simp)
      cases continues with
      | stopped opens => exact absurd later (opens.no_body _ _)
      | @undecoded exc opening raw opens undecodable =>
          obtain early | last := List.mem_append.mp later
          · exact absurd early (opens.no_body _ _)
          · obtain ⟨rfl, rfl⟩ : stored = raw ∧ loaded = raw := by simpa using last
            rw [undecodable] at text
            cases text
      | @answered answer opening raw opens decoded size =>
          obtain early | last := List.mem_append.mp later
          · exact absurd early (opens.no_body _ _)
          · obtain ⟨rfl, rfl⟩ : stored = raw ∧ loaded = raw := by simpa using last
            obtain rfl : first = body := by
              simpa [opens.no_head first] using headed
            exact ⟨answer, rfl, size, last_sighted _ _ _⟩

/-- A run that answers has loaded the text it answers, after its HEAD. -/
theorem Goes.answered {answer : ReadAnswer} {seen : List Sighting}
    (goes : Goes config runtime token forceText (.ok answer) seen) :
    ∃ first raw, .head first ∈ seen ∧ .load false raw raw ∈ seen ∧
      seen.getLast? = some (.load false raw raw) ∧
      textOf runtime forceText raw = some answer.content ∧ answer.size = first.length := by
  cases goes with
  | @sized result first rest within continues =>
      cases continues with
      | @answered answer opening raw opens decoded size =>
          exact ⟨first, raw, by simp, by simp, last_sighted _ _ _, decoded, size⟩

/-- A run has at most one HEAD, first of all, and goes on if the size fits the cap. -/
theorem Goes.headed {result : Result ReadAnswer} {seen : List Sighting}
    (goes : Goes config runtime token forceText result seen) {ranged : Bool} {stored loaded : Bytes}
    (sighted : .load ranged stored loaded ∈ seen) :
    ∃ first rest, seen = .head first :: rest ∧ Within config token first.length ∧
      ∀ body, .head body ∉ rest := by
  cases goes with
  | unread => simp at sighted
  | refused => simp at sighted
  | @sized result first rest within continues =>
      refine ⟨first, rest, rfl, within, fun body => ?_⟩
      cases continues with
      | stopped opens => exact opens.no_head body
      | undecoded opens _ | answered opens _ _ => simp [opens.no_head body]

/-- Whether a run is capped is a matter of the objects that its GETs have met. -/
theorem Goes.capped_iff {result : Result ReadAnswer} {seen : List Sighting}
    (goes : Goes config runtime token forceText result seen) :
    Capped config runtime token forceText result seen ↔
      ∀ first ranged stored loaded, .head first ∈ seen → .load ranged stored loaded ∈ seen →
        stored.length = first.length ∨
          Harmless config runtime token forceText ranged stored := by
  have amount {ranged : Bool} {stored loaded : Bytes}
      (sighted : .load ranged stored loaded ∈ seen) : loaded.length = asked ranged stored := by
    rw [goes.loaded sighted, asked]
    split_ifs
    · exact List.length_take
    · rfl
  constructor
  · intro capped first ranged stored loaded headed sighted
    by_cases same : stored.length = first.length
    · exact .inl same
    · refine .inr ⟨?_, ?_⟩
      · rw [← amount sighted]
        exact capped.loads _ _ _ sighted
      · rintro rfl
        rw [← Option.not_isSome_iff_eq_none]
        intro text
        obtain ⟨answer, rfl, size, last⟩ := goes.answer headed sighted text
        obtain ⟨source, raw, last', -, -, reported⟩ := capped.reports answer rfl
        rw [last] at last'
        obtain ⟨-, -, rfl⟩ := Sighting.load.inj (Option.some.inj last')
        exact same (reported.symm.trans size)
  · intro steady
    have fits : ∀ ranged stored loaded, .load ranged stored loaded ∈ seen →
        Within config token loaded.length := by
      intro ranged stored loaded sighted
      obtain ⟨first, rest, rfl, within, -⟩ := goes.headed sighted
      rw [amount sighted]
      obtain same | harmless := steady first ranged stored loaded List.mem_cons_self sighted
      · -- The GET asks for no more than was at the HEAD, and that fits.
        refine within_le within ?_
        rw [asked, ← same]
        split_ifs
        · exact Nat.min_le_right ..
        · exact Nat.le_refl _
      · exact harmless.fits
    refine ⟨fits, ?_⟩
    rintro answer rfl
    obtain ⟨first, raw, headed, fetched, last, decoded, size⟩ := goes.answered
    refine ⟨raw, raw, last, decoded, fits _ _ _ fetched, ?_⟩
    obtain same | harmless := steady first false raw raw headed fetched
    · exact size.trans same.symm
    · rw [harmless.textless rfl] at decoded
      cases decoded

/-- What the GETs have met is what the puts between have left. -/
theorem steady_iff {result : Result ReadAnswer} {seen interleaving : List Sighting} {body : Bytes}
    (goes : Goes config runtime token forceText result seen)
    (answers : interleaving.filter Sighting.isAnswer = seen)
    (consistent : Consistent body interleaving) :
    Steady config runtime token forceText interleaving ↔
      ∀ first ranged stored loaded, .head first ∈ seen → .load ranged stored loaded ∈ seen →
        stored.length = first.length ∨
          Harmless config runtime token forceText ranged stored := by
  constructor
  · intro steady first ranged stored loaded headed sighted
    obtain ⟨first', rest, rfl, -, single⟩ := goes.headed sighted
    obtain rfl : first = first' := by
      obtain same | later := List.mem_cons.mp headed
      · exact Sighting.head.inj same
      · exact absurd later (single first)
    obtain ⟨before, others, rfl, -, -, kept⟩ := List.filter_eq_cons_iff.mp answers
    have later : .load ranged stored loaded ∈ others.filter Sighting.isAnswer := by
      rw [kept]
      exact (List.mem_cons.mp sighted).resolve_left (by simp)
    obtain ⟨between, after, rfl⟩ := List.append_of_mem (List.mem_filter.mp later).1
    rw [consistent_between (consistent_after consistent)]
    exact steady before first between ranged stored loaded after rfl
  · rintro met before first between ranged stored loaded after rfl
    rw [← consistent_between (consistent_after consistent)]
    refine met first ranged stored loaded ?_ ?_
    · rw [← answers]
      exact List.mem_filter.mpr ⟨by simp, rfl⟩
    · rw [← answers]
      exact List.mem_filter.mpr ⟨by simp, rfl⟩

theorem steady_of_keepsSize {interleaving : List Sighting} (keeps : KeepsSize interleaving) :
    Steady config runtime token forceText interleaving :=
  fun before first between ranged stored loaded after shape =>
    .inl (leftBy_length rfl (keeps before first between ranged stored loaded after shape))

/-- Whatever another client puts between the requests, and whichever requests fail: a read
stays within its cap and reports its size exactly if that client leaves the object with its size
between the HEAD and each GET, or a harmless one instead. It does so where the client puts nothing
of another size in between. -/
theorem read_cap_iff (conventions : Conventions) (unicode : Unicode) (config : Dict)
    (runtime : TextRuntime) (token : Token) (role : Option Str) (bucket path : Str)
    (user : UserDict) (forceText : Bool) (shared : SharedWorld) :
    let program := readFileResponse unicode config runtime token role bucket path user forceText
    let interleaving := program.interleaving conventions bucket path shared
    (Capped config runtime token forceText (program.runShared conventions bucket path shared)
        (interleaving.filter Sighting.isAnswer) ↔
      Steady config runtime token forceText interleaving) ∧
    (KeepsSize interleaving →
      Capped config runtime token forceText (program.runShared conventions bucket path shared)
        (interleaving.filter Sighting.isAnswer)) := by
  intro program interleaving
  have goes : Goes config runtime token forceText
      (program.runShared conventions bucket path shared)
      (interleaving.filter Sighting.isAnswer) := by
    rw [interleaving_answers]
    exact read_goes shared
  have capped : Capped config runtime token forceText
      (program.runShared conventions bucket path shared)
      (interleaving.filter Sighting.isAnswer) ↔
        Steady config runtime token forceText interleaving :=
    goes.capped_iff.trans
      (steady_iff goes rfl (interleaving_consistent read_makes shared)).symm
  exact ⟨capped, fun keeps => capped.mpr (steady_of_keepsSize keeps)⟩

/-- One byte at the HEAD, and these bytes that another client puts before the body is read. -/
def overwrittenMeanwhile (body : Bytes) : SharedWorld where
  world := calm (oneObject (lit "a.txt") [104])
  puts count := if count = 3 then [⟨body, none⟩] else []

def overwrittenRead : S3Program ReadAnswer :=
  readFileResponse Unicode.ascii readConfig plainRuntime smallReads (some (lit "team"))
    (lit "data") (lit "a.txt") readUser false

theorem kept_interleaving :
    overwrittenRead.interleaving Conventions.plain (lit "data") (lit "a.txt")
        (overwrittenMeanwhile [105]) =
      [.head [104], .put [105], .load false [105] [105]] := by
  decide +kernel

/-- Another byte in place of the one that was there does no harm. -/
theorem kept_read_capped :
    Capped readConfig plainRuntime smallReads false
      (overwrittenRead.runShared Conventions.plain (lit "data") (lit "a.txt")
        (overwrittenMeanwhile [105]))
      ((overwrittenRead.interleaving Conventions.plain (lit "data") (lit "a.txt")
        (overwrittenMeanwhile [105])).filter Sighting.isAnswer) := by
  refine (read_cap_iff Conventions.plain Unicode.ascii readConfig plainRuntime smallReads
    (some (lit "team")) (lit "data") (lit "a.txt") readUser false
    (overwrittenMeanwhile [105])).2 ?_
  intro before first between ranged stored loaded after shape body put
  have whole := kept_interleaving.symm.trans shape
  have headed : Sighting.head first ∈
      [.head [104], .put [105], .load false [105] [105]] := by simp [whole]
  have overwritten : Sighting.put body ∈
      [.head [104], .put [105], .load false [105] [105]] := by simp [whole, put]
  obtain rfl : first = [104] := by simpa using headed
  obtain rfl : body = [105] := by simpa using overwritten
  rfl

theorem overwritten_interleaving :
    overwrittenRead.interleaving Conventions.plain (lit "data") (lit "a.txt")
        (overwrittenMeanwhile [104, 104, 104]) =
      [.head [104], .put [104, 104, 104], .load false [104, 104, 104] [104, 104, 104]] := by
  decide +kernel

/-- A token that reads at most two bytes is given three. -/
theorem overwritten_read_exceeds :
    ¬ ∀ (conventions : Conventions) (unicode : Unicode) (config : Dict) (runtime : TextRuntime)
        (token : Token) (role : Option Str) (bucket path : Str) (user : UserDict)
        (forceText : Bool) (shared : SharedWorld),
        let program := readFileResponse unicode config runtime token role bucket path user forceText
        Capped config runtime token forceText (program.runShared conventions bucket path shared)
          ((program.interleaving conventions bucket path shared).filter Sighting.isAnswer) := by
  intro all
  have capped := all Conventions.plain Unicode.ascii readConfig plainRuntime smallReads
    (some (lit "team")) (lit "data") (lit "a.txt") readUser false
    (overwrittenMeanwhile [104, 104, 104])
  dsimp only at capped
  rw [← overwrittenRead, overwritten_interleaving] at capped
  have fits := capped.loads false [104, 104, 104] [104, 104, 104] (by simp [Sighting.isAnswer])
  cases fits

end Runs

end S3Manager.Mcp
