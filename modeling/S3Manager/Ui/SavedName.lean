import S3Manager.Storage.Summary
import S3Manager.Ui.NamePattern
import S3Manager.Utils.ContentDisposition
import S3Manager.Utils.Sanitize

/-! The name that the browser saves a download under. The header quotes the name without
escaping it, so that the pattern can find a second name inside the first. -/

set_option autoImplicit false

namespace S3Manager.Ui

open Python Library Utils Storage

/-- `filename` in `handleDownload`; nothing where `decodeURIComponent` throws, which ends the
download in an error. -/
def savedName (disposition name : Str) : Option Str :=
  let matches_ := filenameMatches disposition
  let starred := matches_.find? fun m => m.starred
  let plain := matches_.find? fun m => !m.starred
  match (starred.map FilenameMatch.value).or (plain.map FilenameMatch.value) with
  | some rawFilename => if rawFilename.isEmpty then some name else Percent.decode rawFilename
  | none => some name

section Pieces

/-- A stretch of text without separators, and the separator that ends it. -/
structure Piece where
  text : Str
  quoted : Bool

def Piece.stop (piece : Piece) : Char := if piece.quoted then '"' else ';'

/-- The pieces of a text that is closed by a quote. -/
def pieces : Str → List Piece
  | [] => [⟨[], true⟩]
  | c :: rest =>
      if c = '"' then ⟨[], true⟩ :: pieces rest
      else if c = ';' then ⟨[], false⟩ :: pieces rest
      else
        match pieces rest with
        | [] => []
        | first :: more => ⟨c :: first.text, first.quoted⟩ :: more

/-- Whether some piece has `filename*=` with a value as its first keyword. A piece that is
itself taken as the value of a keyword does not count; `taken` says so of the first one. -/
def hasStray : Bool → List Piece → Bool
  | _, [] => false
  | true, _ :: rest => hasStray false rest
  | false, piece :: rest =>
      match keywordIn piece.text with
      | none => hasStray false rest
      | some (starred, value) =>
          let takes := piece.quoted && takesNext value &&
            rest.head?.any fun next => !next.text.isEmpty
          if value.isEmpty && !takes then hasStray false rest
          else starred || hasStray takes rest

/-- A name whose ASCII form, behind its first piece, reads as a name of its own. -/
def carriesName (filename : Str) : Bool := hasStray true (pieces (asciiFilename filename))

end Pieces

section Pieces

variable {text last value : Str} {piece : Piece} {list rest : List Piece}

def render : List Piece → Str → Str
  | [], tail => tail
  | piece :: rest, tail => piece.text ++ piece.stop :: render rest tail

theorem Piece.stop_separates (piece : Piece) : isSeparator piece.stop = true := by
  unfold Piece.stop
  split_ifs <;> rfl

theorem pieces_nonempty (text : Str) : pieces text ≠ [] := by
  induction text with
  | nil => exact List.cons_ne_nil _ _
  | cons c rest ih =>
      unfold pieces
      split_ifs
      · exact List.cons_ne_nil _ _
      · exact List.cons_ne_nil _ _
      · cases cut : pieces rest with
        | nil => exact absurd cut ih
        | cons first more => exact List.cons_ne_nil _ _

theorem render_pieces (text tail : Str) : render (pieces text) tail = text ++ '"' :: tail := by
  induction text with
  | nil => rfl
  | cons c rest ih =>
      unfold pieces
      split_ifs with quote semicolon
      · rw [quote, render, ih]
        rfl
      · rw [semicolon, render, ih]
        rfl
      · cases cut : pieces rest with
        | nil => exact absurd cut (pieces_nonempty rest)
        | cons first more =>
            rw [cut] at ih
            exact congrArg (c :: ·) ih

/-- The pieces of a text are made of its characters, and hold no separator. -/
theorem pieces_text {c : Char} (member : piece ∈ pieces text) (inside : c ∈ piece.text) :
    c ∈ text ∧ isSeparator c = false := by
  induction text generalizing piece with
  | nil =>
      obtain rfl := List.mem_singleton.mp member
      cases inside
  | cons d rest ih =>
      unfold pieces at member
      split_ifs at member with quote semicolon
      · obtain rfl | later := List.mem_cons.mp member
        · cases inside
        · exact ⟨List.mem_cons_of_mem d (ih later inside).1, (ih later inside).2⟩
      · obtain rfl | later := List.mem_cons.mp member
        · cases inside
        · exact ⟨List.mem_cons_of_mem d (ih later inside).1, (ih later inside).2⟩
      · cases cut : pieces rest with
        | nil => exact absurd cut (pieces_nonempty rest)
        | cons first more =>
            rw [cut] at member ih
            obtain rfl | later := List.mem_cons.mp member
            · obtain rfl | deeper := List.mem_cons.mp inside
              · exact ⟨List.mem_cons_self, by simp [isSeparator, quote, semicolon]⟩
              · have found := ih List.mem_cons_self deeper
                exact ⟨List.mem_cons_of_mem d found.1, found.2⟩
            · have found := ih (List.mem_cons_of_mem first later) inside
              exact ⟨List.mem_cons_of_mem d found.1, found.2⟩

/-- The value of the first match with a star. -/
def firstStarred (text : Str) : Option Str :=
  ((filenameMatches text).find? fun m => m.starred).map FilenameMatch.value

/-- The value is part of a piece, and there is a keyword beside it. -/
structure Inside (list : List Piece) (value : Str) : Prop where
  shorter : value.length + 9 ≤ (render list []).length
  drawn : ∀ c ∈ value, ∃ piece ∈ list, c ∈ piece.text

theorem Inside.cons (inside : Inside rest value) : Inside (piece :: rest) value := by
  refine ⟨?_, fun c member => ?_⟩
  · have shorter := inside.shorter
    rw [render, List.length_append, List.length_cons]
    omega
  · obtain ⟨source, among, within⟩ := inside.drawn c member
    exact ⟨source, List.mem_cons_of_mem piece among, within⟩

/-- A stray name is what is read of the text; without one it is what follows the pieces. -/
def ReadAs (list : List Piece) (last text : Str) (stray : Bool) : Prop :=
  if stray then ∃ value, firstStarred text = some value ∧ Inside list value
  else firstStarred text = firstStarred last

theorem ReadAs.cons {stray : Bool} (reads : ReadAs rest last text stray) :
    ReadAs (piece :: rest) last text stray := by
  cases stray with
  | false => exact reads
  | true =>
      obtain ⟨value, found, inside⟩ := reads
      exact ⟨value, found, inside.cons⟩

theorem ReadAs.of_matches {stray : Bool} {longer : Str} (reads : ReadAs list last text stray)
    (same : filenameMatches longer = filenameMatches text) : ReadAs list last longer stray := by
  unfold ReadAs firstStarred at reads ⊢
  rw [same]
  exact reads

/-- A match in front decides the reading if it has a star, and nothing otherwise. -/
theorem ReadAs.of_match {stray starred : Bool} {longer : Str} (reads : ReadAs list last text stray)
    (front : filenameMatches longer = ⟨starred, value⟩ :: filenameMatches text)
    (inside : Inside list value) : ReadAs list last longer (starred || stray) := by
  cases starred with
  | true => exact ⟨value, by rw [firstStarred, front]; rfl, inside⟩
  | false =>
      unfold ReadAs firstStarred at reads ⊢
      rw [front]
      exact reads

theorem inside_own {keyword : Bool × Str} (read : keywordIn piece.text = some keyword)
    (within : value <:+ keyword.2) : Inside (piece :: rest) value := by
  obtain ⟨suffix, length⟩ := keywordIn_length read
  refine ⟨?_, fun c member =>
    ⟨piece, List.mem_cons_self, suffix.subset (within.subset member)⟩⟩
  have fewer := within.length_le
  rw [render, List.length_append]
  split_ifs at length <;> omega

theorem inside_next {keyword : Bool × Str} {next : Piece} {more : List Piece}
    (read : keywordIn piece.text = some keyword) : Inside (piece :: next :: more) next.text := by
  obtain ⟨-, length⟩ := keywordIn_length read
  refine ⟨?_, fun c member =>
    ⟨next, List.mem_cons_of_mem piece List.mem_cons_self, member⟩⟩
  rw [render, render, List.length_append, List.length_cons, List.length_append]
  split_ifs at length <;> omega

/-- A keyword whose value could go on in the next piece, but ends with its own. -/
theorem readAs_stopped {starred : Bool} (read : keywordIn piece.text = some (starred, value))
    (takes : takesNext value = true) (clean : Clean value)
    (stopped : piece.stop = '"' → runAt (render rest (';' :: last)) = none)
    (free : ReadAs rest last (render rest (';' :: last)) (hasStray false rest)) :
    ReadAs (piece :: rest) last (piece.text ++ piece.stop :: render rest (';' :: last))
      (if value.isEmpty then hasStray false rest else starred || hasStray false rest) := by
  have separates := piece.stop_separates
  have run := valueAt_stopped takes clean separates stopped
  cases value with
  | nil => exact (free.of_matches (filenameMatches_useless read separates run)).cons
  | cons c tail =>
      have front := filenameMatches_keyword read separates run
      rw [filenameMatches_dropQuote separates] at front
      exact free.cons.of_match front (inside_own read List.suffix_rfl)

/-- A piece that is not taken, in front of pieces that are read already. -/
theorem readAs_piece (clean : ∀ member ∈ piece :: rest, Clean member.text)
    (free : ReadAs rest last (render rest (';' :: last)) (hasStray false rest))
    (taken : ReadAs rest last (render rest.tail (';' :: last)) (hasStray true rest)) :
    ReadAs (piece :: rest) last (render (piece :: rest) (';' :: last))
      (hasStray false (piece :: rest)) := by
  have separates := piece.stop_separates
  rw [hasStray, render]
  cases read : keywordIn piece.text with
  | none => exact (free.of_matches (filenameMatches_piece read separates)).cons
  | some keyword =>
      obtain ⟨starred, value⟩ := keyword
      have behind := (keywordIn_length read).1
      have cleanValue := (clean piece List.mem_cons_self).of_suffix behind
      dsimp only
      cases own : takesNext value with
      | false =>
          have live : value.isEmpty = false := by
            cases value with
            | nil => cases own
            | cons c tail => rfl
          obtain ⟨found, run, within⟩ := @valueAt_alone _ (render rest (';' :: last)) _ cleanValue own
            separates
          have front := filenameMatches_keyword read separates run
          rw [filenameMatches_dropQuote separates] at front
          simp only [live, Bool.and_false, Bool.false_and]
          exact free.cons.of_match front (inside_own read within)
      | true =>
          have ends (stopped : piece.stop = '"' → runAt (render rest (';' :: last)) = none) :=
            readAs_stopped read own cleanValue stopped free
          match rest with
          | [] =>
              have reads := ends fun _ => runAt_stop rfl
              simpa using reads
          | next :: more =>
              by_cases empty : next.text = []
              · have reads := ends fun _ => by
                  rw [render, empty]
                  exact runAt_stop next.stop_separates
                simpa [empty] using reads
              · cases quoted : piece.quoted with
                | false =>
                    have reads := ends fun quote => by simp [Piece.stop, quoted] at quote
                    simpa using reads
                | true =>
                    have cleanNext := clean next (List.mem_cons_of_mem piece List.mem_cons_self)
                    have stop : piece.stop = '"' := by simp [Piece.stop, quoted]
                    have run := valueAt_behind own
                      (@runAt_clean _ (render more (';' :: last)) _ cleanNext empty
                        next.stop_separates)
                    rw [← stop] at run
                    have front := filenameMatches_keyword read separates run
                    rw [filenameMatches_dropQuote next.stop_separates] at front
                    have live : next.text.isEmpty = false := by simpa using empty
                    simp only [List.head?_cons, Option.any_some, live, Bool.not_false,
                      Bool.and_self, Bool.not_true, Bool.and_false, Bool.false_eq_true, if_false]
                    exact taken.cons.of_match front (inside_next read)

theorem readAs (list : List Piece) (last : Str) (clean : ∀ piece ∈ list, Clean piece.text) :
    ReadAs list last (render list (';' :: last)) (hasStray false list) ∧
      ReadAs list last (render list.tail (';' :: last)) (hasStray true list) := by
  have ending : firstStarred (';' :: last) = firstStarred last := by
    rw [firstStarred, filenameMatches_stop rfl]
    rfl
  induction list with
  | nil => exact ⟨ending, ending⟩
  | cons piece rest ih =>
      obtain ⟨free, taken⟩ := ih fun member among => clean member (List.mem_cons_of_mem piece among)
      exact ⟨readAs_piece clean free taken, free.cons⟩

end Pieces

section Header

variable {filename shown raw text disposition : Str}

/-- The header behind its first semicolon after the ASCII form. -/
def encodedParameter (filename : Str) : Str :=
  lit " filename*=UTF-8''" ++ utf8Filename filename

theorem header_pieces (filename : Str) :
    formatContentDisposition filename =
      lit "attachment" ++ ';' :: (lit " filename=" ++ '"' ::
        render (pieces (asciiFilename filename)) (';' :: encodedParameter filename)) := by
  rw [render_pieces]
  simp only [formatContentDisposition, encodedParameter, List.append_assoc]
  rfl

/-- The first piece of the name is taken as the value of the plain parameter. -/
theorem header_starred (filename : Str) :
    firstStarred (formatContentDisposition filename) =
      firstStarred (render (pieces (asciiFilename filename)).tail
        (';' :: encodedParameter filename)) := by
  have bare : keywordIn (lit "attachment") = none := by decide
  have parameter : keywordIn (lit " filename=") = some (false, []) := by decide
  unfold firstStarred
  rw [header_pieces, filenameMatches_piece bare rfl]
  cases cut : pieces (asciiFilename filename) with
  | nil => exact absurd cut (pieces_nonempty _)
  | cons first more =>
      have cleanFirst : Clean first.text := by
        intro c member
        have among : first ∈ pieces (asciiFilename filename) := by
          rw [cut]
          exact List.mem_cons_self
        exact (pieces_text among member).2
      rw [render, List.tail_cons]
      by_cases empty : first.text = []
      · have nothing : valueAt ('"' :: (first.text ++ first.stop ::
            render more (';' :: encodedParameter filename))) = none := by
          refine @valueAt_stopped [] _ _ rfl (fun _ member => nomatch member) rfl fun _ => ?_
          rw [empty]
          exact runAt_stop first.stop_separates
        rw [filenameMatches_useless parameter rfl nothing, empty, List.nil_append,
          filenameMatches_stop first.stop_separates]
      · have run := @valueAt_behind [] _ _ rfl (@runAt_clean _
          (render more (';' :: encodedParameter filename)) _ cleanFirst empty first.stop_separates)
        rw [filenameMatches_keyword parameter rfl run,
          filenameMatches_dropQuote first.stop_separates]
        rfl

theorem utf8Filename_clean (filename : Str) : Clean (utf8Filename filename) := by
  intro c member
  have plain := Percent.encode_plain member
  simp [isSeparator, plain]

theorem utf8Filename_live (live : filename ≠ []) :
    ∃ rest, utf8Filename filename = '%' :: rest := by
  cases filename with
  | nil => exact absurd rfl live
  | cons c tail =>
      unfold utf8Filename
      rw [utf8Encode_cons]
      cases encoded : String.utf8EncodeChar c with
      | nil =>
          have positive := utf8EncodeChar_pos c
          rw [encoded] at positive
          cases positive
      | cons byte bytes => exact ⟨_, rfl⟩

theorem run_whole (clean : Clean text) : text.takeWhile (fun c => !isSeparator c) = text := by
  rw [List.takeWhile_eq_self_iff]
  intro c member
  rw [clean c member]
  rfl

theorem encodedParameter_starred (live : filename ≠ []) :
    firstStarred (encodedParameter filename) = some (utf8Filename filename) := by
  obtain ⟨rest, shape⟩ := utf8Filename_live live
  have clean := utf8Filename_clean filename
  rw [shape] at clean
  have run : runAt ('%' :: rest) = some ('%' :: rest, []) := by
    rw [runAt, run_whole clean, List.drop_length]
    rfl
  have value : valueAt (lit "UTF-8''" ++ '%' :: rest) = some ('%' :: rest, []) := by
    have letters : afterIgnoringCase (lit "utf-8''") (lit "UTF-8''") = some [] := by decide
    have unquoted : quotedRunAt ('%' :: rest) = some ('%' :: rest, []) := by
      simp [quotedRunAt, run]
    rw [valueAt, afterIgnoringCase_longer (by decide), letters, Option.map_some, Option.bind_some,
      List.nil_append, unquoted, Option.some_or]
  have spelled : lit "filename*=UTF-8''" = 'f' :: lit "ilename*=UTF-8''" := by decide
  have blank : keywordAt (' ' :: (lit "filename*=UTF-8''" ++ '%' :: rest)) = none := by
    have bare : keywordAt (' ' :: lit "filename*=UTF-8''") = none := by decide
    rw [← List.cons_append, keywordAt_prefix (by decide), bare, Option.map_none]
  have keyword : keywordAt ('f' :: (lit "ilename*=UTF-8''" ++ '%' :: rest)) =
      some (true, lit "UTF-8''" ++ '%' :: rest) := by
    have bare : keywordAt ('f' :: lit "ilename*=UTF-8''") = some (true, lit "UTF-8''") := by decide
    rw [← List.cons_append, keywordAt_prefix (by decide), bare, Option.map_some]
  have parameter : encodedParameter filename = ' ' :: (lit "filename*=UTF-8''" ++ '%' :: rest) := by
    have blankFirst : lit " filename*=UTF-8''" = ' ' :: lit "filename*=UTF-8''" := by decide
    rw [encodedParameter, shape, blankFirst, List.cons_append]
  rw [firstStarred, parameter, filenameMatches_skip blank, spelled, List.cons_append,
    filenameMatches_hit keyword value, shape]
  rfl

theorem runAt_live {value after : Str} (read : runAt text = some (value, after)) : value ≠ [] := by
  unfold runAt at read
  dsimp only at read
  split_ifs at read with empty
  obtain ⟨rfl, -⟩ := Prod.mk.inj (Option.some.inj read)
  simpa using empty

theorem quotedRunAt_live {value after : Str} (read : quotedRunAt text = some (value, after)) :
    value ≠ [] := by
  obtain quoted | ⟨-, plain⟩ := Option.or_eq_some_iff.mp read
  · split at quoted
    · exact runAt_live quoted
    · cases quoted
  · exact runAt_live plain

theorem valueAt_live {value after : Str} (read : valueAt text = some (value, after)) :
    value ≠ [] := by
  obtain charset | ⟨-, plain⟩ := Option.or_eq_some_iff.mp read
  · obtain ⟨behind, -, run⟩ := Option.bind_eq_some_iff.mp charset
    exact quotedRunAt_live run
  · exact quotedRunAt_live plain

/-- The value of a match is never empty. -/
theorem firstStarred_live (found : firstStarred text = some raw) : raw ≠ [] := by
  obtain ⟨m, first, rfl⟩ := Option.map_eq_some_iff.mp found
  obtain ⟨place, after, hit⟩ := Scan.mem_all (List.mem_of_find?_eq_some first)
  obtain ⟨keyword, -, read⟩ := Option.bind_eq_some_iff.mp hit
  obtain ⟨run, value, same⟩ := Option.map_eq_some_iff.mp read
  obtain ⟨rfl, -⟩ := Prod.mk.inj same
  exact valueAt_live value

theorem savedName_starred (found : firstStarred disposition = some raw) :
    savedName disposition shown = Percent.decode raw := by
  have live : raw.isEmpty = false := by simpa using firstStarred_live found
  unfold savedName
  dsimp only
  unfold firstStarred at found
  rw [found, Option.some_or]
  simp only [live, Bool.false_eq_true, if_false]

/-- The name comes back exactly if it is not empty and carries no other name. -/
theorem savedName_iff : savedName (formatContentDisposition filename) shown = some filename ↔
    filename ≠ [] ∧ carriesName filename = false := by
  have clean : ∀ piece ∈ pieces (asciiFilename filename), Clean piece.text :=
    fun piece among c member => (pieces_text among member).2
  have reads := (readAs (pieces (asciiFilename filename)) (encodedParameter filename) clean).2
  cases carries : carriesName filename with
  | true =>
      simp only [Bool.true_eq_false, and_false, iff_false]
      rw [carriesName] at carries
      rw [carries] at reads
      obtain ⟨value, found, inside⟩ := reads
      rw [← header_starred] at found
      rw [savedName_starred found]
      intro decoded
      have ascii : ∀ c ∈ value, c.toNat < 128 := by
        intro c member
        obtain ⟨piece, among, within⟩ := inside.drawn c member
        exact asciiFilename_ascii (pieces_text among within).1
      have longer := Percent.decode_length decoded ascii
      have shorter := inside.shorter
      rw [render_pieces, List.length_append, asciiFilename_length] at shorter
      simp only [List.length_cons, List.length_nil] at shorter
      omega
  | false =>
      rw [carriesName] at carries
      rw [carries] at reads
      have found := (header_starred filename).trans reads
      constructor
      · intro saved
        refine ⟨?_, rfl⟩
        rintro rfl
        have charset : firstStarred (encodedParameter []) = some (lit "UTF-8''") := by decide
        rw [savedName_starred (found.trans charset)] at saved
        obtain ⟨bytes, parsed, decodes⟩ := Option.bind_eq_some_iff.mp saved
        obtain rfl := utf8Decode_eq_some_iff.mp decodes
        exact absurd parsed (by decide)
      · rintro ⟨live, -⟩
        rw [savedName_starred (found.trans (encodedParameter_starred live))]
        exact Percent.decode_encode filename

theorem lastPiece_nil {path : Str} (none_ : lastPiece '/' path = []) :
    path = [] ∨ ∃ init, path = init ++ ['/'] := by
  unfold lastPiece at none_
  rw [List.reverse_eq_nil_iff] at none_
  cases backwards : path.reverse with
  | nil => exact .inl (List.reverse_eq_nil_iff.mp backwards)
  | cons c rest =>
      rw [backwards, List.takeWhile_cons] at none_
      split_ifs at none_ with other
      obtain rfl : c = '/' := by simpa using other
      exact .inr ⟨rest.reverse, by rw [← List.reverse_reverse path, backwards, List.reverse_cons]⟩

/-- A sanitized path ends in a name. -/
theorem lastPiece_sanitized {path key : Str} (sanitized : sanitizePath path = .ok key) :
    lastPiece '/' key ≠ [] ↔ key ≠ [] := by
  refine not_congr ⟨fun none_ => ?_, fun empty => by rw [empty]; rfl⟩
  refine (lastPiece_nil none_).resolve_right fun ⟨init, shape⟩ => ?_
  by_cases nonempty : path = []
  · rw [nonempty] at sanitized
    obtain rfl : [] = key := Except.ok.inj sanitized
    simp at shape
  · obtain ⟨-, -, stripped, -⟩ := (sanitizePath_eq_ok_iff nonempty).mp sanitized
    exact rstripSlash_last (stripped.symm.trans shape)

/-- A downloaded file is saved under the last segment of its path exactly if that segment does
not carry another name behind a quote or a semicolon. -/
theorem download_name_iff {path key : Str} (sanitized : sanitizePath path = .ok key) (shown : Str) :
    savedName (formatContentDisposition (lastPiece '/' key)) shown = some (lastPiece '/' key) ↔
      key ≠ [] ∧ carriesName (lastPiece '/' key) = false := by
  rw [savedName_iff, lastPiece_sanitized sanitized]

theorem report_saved :
    savedName (formatContentDisposition (lastPiece '/' (lit "docs/50% \"off\"; plan.txt")))
        (lit "plan") = some (lastPiece '/' (lit "docs/50% \"off\"; plan.txt")) ↔
      lit "docs/50% \"off\"; plan.txt" ≠ [] ∧
        carriesName (lastPiece '/' (lit "docs/50% \"off\"; plan.txt")) = false :=
  @download_name_iff (lit "docs/50% \"off\"; plan.txt/") _ rfl (lit "plan")

/-- A file of this name is saved under another one, which stands inside it. -/
theorem invoice_saved_as_setup :
    ¬ ∀ path key shown, sanitizePath path = .ok key →
      savedName (formatContentDisposition (lastPiece '/' key)) shown =
        some (lastPiece '/' key) := by
  intro all
  have saved := all (lit "docs/invoice;filename*=setup.exe") _ [] rfl
  rw [savedName_iff] at saved
  exact absurd saved.2 (by decide)

end Header

end S3Manager.Ui
