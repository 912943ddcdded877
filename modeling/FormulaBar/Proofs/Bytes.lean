import FormulaBar.Proofs.Stepping

/-! # Bytes — a cursor that is an offset

    A cursor here is a text cut in two, so it cannot stand inside of a
    character.  A byte offset can: half a character is no text, and to cut a
    text there fails.  Beside the cursor as two texts stands the cursor as
    an offset, which is moved by adding up bytes and may fail at every
    request.

    The offset of a cursor is the length of the text before it.  So it is a
    place between characters wherever requests have led, no request fails
    there, and the two cursors answer alike.  What lies between two places
    is what the requests between them have taken. -/

namespace FormulaBar

open String.Pos.Raw (IsValid)

/-! ## Places of a text -/

/-- A string has as many bytes as its characters. -/
theorem utf8ByteSize_ofList_eq (text : List Char) :
    (String.ofList text).utf8ByteSize = byteLength text := by
  induction text with
  | nil => rfl
  | cons c text ih =>
      have hsplit : String.ofList (c :: text) = String.singleton c ++ String.ofList text := by
        rw [String.singleton_eq_ofList, ← String.ofList_append]
        rfl
      rw [hsplit, String.utf8ByteSize_append, String.utf8ByteSize_singleton, ih]
      rfl

/-- The places between the characters of a text are where a text in front of
    them ends. -/
theorem isValid_ofList_iff {text : List Char} {n : Nat} :
    IsValid (String.ofList text) ⟨n⟩ ↔
      ∃ front back, text = front ++ back ∧ byteLength front = n := by
  rw [String.Pos.Raw.isValid_iff_exists_append]
  constructor
  · rintro ⟨s, t, heq, hn⟩
    refine ⟨s.toList, t.toList, ?_, ?_⟩
    · rw [← String.toList_append, ← heq, String.toList_ofList]
    · rw [← utf8ByteSize_ofList_eq, String.ofList_toList]
      exact (congrArg String.Pos.Raw.byteIdx hn).symm
  · rintro ⟨front, back, rfl, rfl⟩
    refine ⟨_, _, String.ofList_append, ?_⟩
    rw [← utf8ByteSize_ofList_eq]
    rfl

/-- Bytes are dropped where characters in front take up just as many. -/
theorem dropBytes?_eq_some_iff {n : Nat} {text back : List Char} :
    dropBytes? n text = some back ↔ ∃ front, text = front ++ back ∧ byteLength front = n := by
  constructor
  · intro h
    fun_induction dropBytes? n text with
    | case1 text => exact ⟨[], Option.some.inj h, rfl⟩
    | case2 n => cases h
    | case3 n c text hc ih =>
        obtain ⟨front, rfl, hfront⟩ := ih h
        refine ⟨c :: front, rfl, ?_⟩
        show c.utf8Size + byteLength front = n + 1
        omega
    | case4 => cases h
  · rintro ⟨front, rfl, rfl⟩
    exact dropBytes?_append front back

/-- Bytes are not dropped where they end inside of a character or behind the
    text. -/
theorem dropBytes?_eq_none_iff {n : Nat} {text : List Char} :
    dropBytes? n text = none ↔ ¬ IsValid (String.ofList text) ⟨n⟩ := by
  rw [isValid_ofList_iff, Option.eq_none_iff_forall_ne_some]
  constructor
  · rintro h ⟨front, back, heq, hn⟩
    exact h back (dropBytes?_eq_some_iff.mpr ⟨front, heq, hn⟩)
  · intro h back hback
    obtain ⟨front, heq, hn⟩ := dropBytes?_eq_some_iff.mp hback
    exact h ⟨front, back, heq, hn⟩

/-- Of the places of a text, those up to the end of a part in front are the
    places of that part. -/
theorem isValid_front_iff {front : List Char} (back : List Char) {n : Nat} :
    IsValid (String.ofList front) ⟨n⟩ ↔
      n ≤ byteLength front ∧ IsValid (String.ofList (front ++ back)) ⟨n⟩ := by
  rw [isValid_ofList_iff, isValid_ofList_iff]
  constructor
  · rintro ⟨a, b, rfl, rfl⟩
    refine ⟨?_, a, b ++ back, List.append_assoc a b back, rfl⟩
    rw [byteLength_append]
    exact Nat.le_add_right _ _
  · rintro ⟨hle, a, b, heq, rfl⟩
    obtain ⟨c, rfl, -⟩ | ⟨c, rfl, -⟩ := List.append_eq_append_iff.mp heq
    · -- the place is not past the end, so what it goes beyond the end is empty
      rw [byteLength_append] at hle
      obtain rfl : c = [] := Cursor.byteLength_eq_zero.mp (by omega)
      exact ⟨front, [], (List.append_nil _).symm, by rw [List.append_nil]⟩
    · exact ⟨a, c, rfl, rfl⟩

/-! ## Slices -/

/-- The text between two byte offsets; none where they are out of order, or
    one of them is inside of a character or past the end. -/
def slice? (text : String) (start stop : Nat) : Option String :=
  if h : start ≤ stop ∧ IsValid text ⟨start⟩ ∧
      IsValid text ⟨stop⟩ then
    some (String.extract ⟨⟨start⟩, h.2.1⟩ ⟨⟨stop⟩, h.2.2⟩)
  else none

/-- The slice between the bytes of two fronts is the part between them. -/
theorem slice?_append (front part back : List Char) :
    slice? (String.ofList (front ++ (part ++ back))) (byteLength front)
      (byteLength (front ++ part)) = some (String.ofList part) := by
  have hplaces : byteLength front ≤ byteLength (front ++ part) ∧
      IsValid (String.ofList (front ++ (part ++ back))) ⟨byteLength front⟩ ∧
      IsValid (String.ofList (front ++ (part ++ back)))
        ⟨byteLength (front ++ part)⟩ := by
    refine ⟨?_, isValid_ofList_iff.mpr ⟨front, part ++ back, rfl, rfl⟩,
      isValid_ofList_iff.mpr ⟨front ++ part, back, (List.append_assoc _ _ _).symm, rfl⟩⟩
    rw [byteLength_append]
    exact Nat.le_add_right _ _
  rw [slice?, dif_pos hplaces]
  congr 1
  -- the bytes of the text are those of its three parts, and the middle is cut out
  have hfront : byteLength front = (String.ofList front).toByteArray.size :=
    (utf8ByteSize_ofList_eq front).symm
  have hpart : byteLength part = (String.ofList part).toByteArray.size :=
    (utf8ByteSize_ofList_eq part).symm
  have hbytes : (String.ofList (front ++ (part ++ back))).toByteArray =
      (String.ofList front).toByteArray ++
        ((String.ofList part).toByteArray ++ (String.ofList back).toByteArray) := by
    rw [String.ofList_append, String.ofList_append, String.toByteArray_append,
      String.toByteArray_append]
  rw [← String.toByteArray_inj, String.toByteArray_extract]
  show ByteArray.extract _ (byteLength front + 0) (byteLength (front ++ part)) = _
  rw [byteLength_append, hfront, hpart, hbytes, ByteArray.extract_append_size_add,
    ByteArray.extract_append_eq_left rfl]

/-- A slice up to the end of a part in front drops bytes off that part. -/
theorem slice?_front (front back : List Char) (n : Nat) :
    slice? (String.ofList (front ++ back)) n (byteLength front)
      = (dropBytes? n front).map String.ofList := by
  cases hdrop : dropBytes? n front with
  | some part =>
      obtain ⟨a, rfl, rfl⟩ := dropBytes?_eq_some_iff.mp hdrop
      rw [List.append_assoc, slice?_append]
      rfl
  | none =>
      rw [dropBytes?_eq_none_iff, isValid_front_iff back] at hdrop
      exact dif_neg fun h => hdrop ⟨h.1, h.2.1⟩

/-- A slice is a part of the text, and its ends are the bytes in front of it
    and of its end. -/
theorem slice?_eq_some {text : List Char} {start stop : Nat} {part : String}
    (h : slice? (String.ofList text) start stop = some part) :
    ∃ front back, text = front ++ (part.toList ++ back) ∧ byteLength front = start ∧
      byteLength (front ++ part.toList) = stop := by
  have hstop : IsValid (String.ofList text) ⟨stop⟩ := by
    rw [slice?] at h
    split at h
    · next hplaces => exact hplaces.2.2
    · cases h
  obtain ⟨front', back, rfl, rfl⟩ := isValid_ofList_iff.mp hstop
  rw [slice?_front, Option.map_eq_some_iff] at h
  obtain ⟨part', hdrop, rfl⟩ := h
  obtain ⟨front, rfl, hstart⟩ := dropBytes?_eq_some_iff.mp hdrop
  rw [String.toList_ofList]
  exact ⟨front, back, List.append_assoc _ _ _, hstart, rfl⟩

/-! ## Searches -/

/-- A search of a text for a pattern: where its first match starts and ends,
    as byte offsets, if there is any. -/
@[ext]
structure Search where
  find? : String → Option (Nat × Nat)
  /-- A match is a slice of the text. -/
  slices : ∀ {text start stop}, find? text = some (start, stop) →
    (slice? text start stop).isSome = true

namespace Search

/-- The match that counts: it starts where the text does and is not empty. -/
def atStart? (s : Search) (text : String) : Option (Nat × Nat) :=
  (s.find? text).filter fun (start, stop) => start = 0 ∧ stop ≠ 0

/-- The text of the match that counts. -/
def ahead (s : Search) (text : List Char) : List Char :=
  match s.atStart? (String.ofList text) with
  | some (_, stop) => ((slice? (String.ofList text) 0 stop).getD "").toList
  | none => []

/-- The match that counts is the front of the text up to where it ends. -/
theorem atStart?_eq_some {s : Search} {text : List Char} {start stop : Nat}
    (h : s.atStart? (String.ofList text) = some (start, stop)) :
    slice? (String.ofList text) 0 stop = some (String.ofList (s.ahead text)) ∧
      s.ahead text <+: text ∧ s.ahead text ≠ [] := by
  have hahead : s.ahead text = ((slice? (String.ofList text) 0 stop).getD "").toList := by
    rw [ahead, h]
  obtain ⟨hfind, hcounts⟩ := Option.filter_eq_some_iff.mp h
  obtain ⟨rfl, hstop⟩ : start = 0 ∧ stop ≠ 0 := by simpa using hcounts
  obtain ⟨part, hpart⟩ := Option.isSome_iff_exists.mp (s.slices hfind)
  rw [hpart, Option.getD_some] at hahead
  obtain ⟨front, back, htext, hfront, hlength⟩ := slice?_eq_some hpart
  obtain rfl : front = [] := Cursor.byteLength_eq_zero.mp hfront
  rw [hahead, String.ofList_toList]
  refine ⟨hpart, ⟨back, htext.symm⟩, fun hnil => hstop ?_⟩
  rw [← hlength, hnil]
  rfl

theorem ahead_eq_nil {s : Search} {text : List Char}
    (h : s.atStart? (String.ofList text) = none) : s.ahead text = [] := by
  rw [ahead, h]

/-- The pattern that takes the match that counts. -/
def pattern (s : Search) : Pattern where
  ahead := s.ahead
  ahead_isPrefix text := by
    cases h : s.atStart? (String.ofList text) with
    | none =>
        rw [ahead_eq_nil h]
        exact List.nil_prefix
    | some found => exact (atStart?_eq_some h).2.1

end Search

/-! ## Requests -/

/-- What may be asked of a cursor. -/
inductive Request where
  | peek
  | peekAt (offset : Nat)
  | advance
  /-- The match at the cursor; the cursor moves past it where it takes it. -/
  | search (s : Search) (takes : Bool)

/-- Whether the cursor moves past what is found. -/
def Request.takes : Request → Bool
  | .peek => false
  | .peekAt _ => false
  | .advance => true
  | .search _ takes => takes

namespace Cursor

/-- What is found at the request. -/
def answer (c : Cursor) : Request → Option String
  | .peek => c.peek?.map String.singleton
  | .peekAt offset => (c.peekAt? offset).map String.singleton
  | .advance => c.peek?.map String.singleton
  | .search s _ => (c.match? s.pattern).map String.ofList

/-- The cursor behind a request. -/
def after (c : Cursor) : Request → Cursor
  | .peek => c
  | .peekAt _ => c
  | .advance => c.advance 1
  | .search s takes => if takes then c.skip s.pattern else c

/-- The answers to requests one after the other. -/
def answers (c : Cursor) : List Request → List (Option String)
  | [] => []
  | r :: rs => c.answer r :: (c.after r).answers rs

/-- The cursor behind requests one after the other. -/
def behind (c : Cursor) (rs : List Request) : Cursor :=
  rs.foldl after c

theorem behind_append (c : Cursor) (rs rs' : List Request) :
    c.behind (rs ++ rs') = (c.behind rs).behind rs' :=
  List.foldl_append

/-- The text that a request takes. -/
def taken (c : Cursor) (r : Request) : String :=
  if r.takes then (c.answer r).getD "" else ""

/-- The texts that requests take, one behind the other. -/
def takenBy (c : Cursor) : List Request → String
  | [] => ""
  | r :: rs => c.taken r ++ (c.after r).takenBy rs

end Cursor

/-! ## Moves are requests -/

namespace Pattern

/-- What the pattern takes, as a match. -/
def found? (p : Pattern) (text : List Char) : Option (Nat × Nat) :=
  if p.ahead text = [] then none else some (0, byteLength (p.ahead text))

/-- What a pattern takes is the slice of as many bytes at the front. -/
theorem slice?_ahead (p : Pattern) (text : List Char) :
    slice? (String.ofList text) 0 (byteLength (p.ahead text))
      = some (String.ofList (p.ahead text)) := by
  have hslice := slice?_append [] (p.ahead text) (text.drop (p.ahead text).length)
  rwa [List.nil_append, List.nil_append,
    List.prefix_iff_eq_append.mp (p.ahead_isPrefix text)] at hslice

/-- The search that finds what the pattern takes. -/
def search (p : Pattern) : Search where
  find? text := p.found? text.toList
  slices := by
    intro text start stop h
    have hslice := p.slice?_ahead text.toList
    rw [String.ofList_toList] at hslice
    rw [found?] at h
    split at h
    · cases h
    · obtain ⟨rfl, rfl⟩ := Prod.mk.inj (Option.some.inj h)
      exact Option.isSome_iff_exists.mpr ⟨_, hslice⟩

/-- Every pattern is that of a search. -/
theorem pattern_search (p : Pattern) : p.search.pattern = p := by
  suffices hahead : p.search.ahead = p.ahead by
    obtain ⟨ahead, hprefix⟩ := p
    exact Pattern.mk.injEq .. ▸ hahead
  funext text
  -- what is found is at the start, so none of it is filtered out
  have hstart : p.search.atStart? (String.ofList text) = p.found? text := by
    show (p.found? (String.ofList text).toList).filter _ = _
    rw [String.toList_ofList, found?]
    split
    · rfl
    · next hne =>
      have hpos : byteLength (p.ahead text) ≠ 0 := fun h => hne (Cursor.byteLength_eq_zero.mp h)
      exact Option.filter_some_pos (decide_eq_true ⟨rfl, hpos⟩)
  rw [Search.ahead, hstart, found?]
  split
  · next heq =>
    split at heq
    · cases heq
    · obtain ⟨-, rfl⟩ := Prod.mk.inj (Option.some.inj heq)
      rw [slice?_ahead, Option.getD_some, String.toList_ofList]
  · next heq =>
    split at heq
    · next hnil => exact hnil.symm
    · cases heq

end Pattern

namespace Cursor

/-- The places that a cursor reaches are those that requests lead to. -/
theorem reaches_iff_exists_behind {c d : Cursor} : c.Reaches d ↔ ∃ rs, c.behind rs = d := by
  constructor
  · -- one request for each move
    intro h
    induction h with
    | refl => exact ⟨[], rfl⟩
    | advance _ ih =>
        obtain ⟨rs, rfl⟩ := ih
        exact ⟨rs ++ [.advance], c.behind_append rs _⟩
    | skip p _ ih =>
        obtain ⟨rs, rfl⟩ := ih
        refine ⟨rs ++ [.search p.search true], (c.behind_append rs _).trans ?_⟩
        show (c.behind rs).skip p.search.pattern = _
        rw [Pattern.pattern_search]
  · -- a request that only looks leaves the cursor where it is
    rintro ⟨rs, rfl⟩
    induction rs using List.reverseRecOn with
    | nil => exact .refl
    | append_singleton rs r ih =>
        rw [behind_append]
        cases r with
        | peek => exact ih
        | peekAt offset => exact ih
        | advance => exact .advance ih
        | search s takes =>
            cases takes with
            | false => exact ih
            | true => exact .skip s.pattern ih

end Cursor

/-! ## The cursor as an offset -/

/-- A place in a text by its byte offset, which may be none. -/
structure ByteCursor where
  source : String
  position : Nat := 0

namespace ByteCursor

/-- The text behind the offset. -/
def rest? (b : ByteCursor) : Option String :=
  slice? b.source b.position b.source.utf8ByteSize

/-- The text between two offsets, of which the cursor is the second. -/
def sliceFrom? (b : ByteCursor) (start : Nat) : Option String :=
  slice? b.source start b.position

/-- The cursor that many bytes further on. -/
def moveBy (b : ByteCursor) (n : Nat) : ByteCursor :=
  { b with position := b.position + n }

/-- The character at the offset. -/
def peek? (b : ByteCursor) : Option (Option Char) :=
  b.rest?.map fun rest => rest.toList.head?

/-- The character `offset` bytes further on.  Where that is no place of the
    text there is no character, but nothing fails. -/
def peekAt? (b : ByteCursor) (offset : Nat) : Option (Option Char) :=
  b.rest?.map fun rest => (slice? rest offset rest.utf8ByteSize).bind fun s => s.toList.head?

/-- Moves past the character at the offset, if there is one. -/
def advance? (b : ByteCursor) : Option (Option Char × ByteCursor) :=
  b.peek?.map fun found => (found, b.moveBy ((found.map Char.utf8Size).getD 0))

/-- The match at the offset, and the cursor moved past it where it takes it. -/
def search? (b : ByteCursor) (s : Search) (takes : Bool) : Option (Option String × ByteCursor) :=
  b.rest?.bind fun rest =>
    match s.atStart? rest with
    | none => some (none, b)
    | some (_, stop) =>
        (slice? rest 0 stop).map fun found =>
          (some found, if takes then b.moveBy found.utf8ByteSize else b)

/-- The answer to a request and the cursor behind it; none where a text is cut
    inside of a character or past its end. -/
def ask? (b : ByteCursor) : Request → Option (Option String × ByteCursor)
  | .peek => b.peek?.map fun found => (found.map String.singleton, b)
  | .peekAt offset => (b.peekAt? offset).map fun found => (found.map String.singleton, b)
  | .advance => b.advance?.map fun (found, b') => (found.map String.singleton, b')
  | .search s takes => b.search? s takes

/-- The answers to requests one after the other, and the cursor behind them. -/
def run? (b : ByteCursor) : List Request → Option (List (Option String) × ByteCursor)
  | [] => some ([], b)
  | r :: rs =>
      (b.ask? r).bind fun (answer, b') =>
        (b'.run? rs).map fun (answers, last) => (answer :: answers, last)

end ByteCursor

namespace Cursor

/-- The cursor by its offset. -/
def bytes (c : Cursor) : ByteCursor :=
  ⟨String.ofList c.source, c.position⟩

/-- A cursor starts at the first byte of its source. -/
theorem bytes_ofString (source : String) : (Cursor.ofString source).bytes = ⟨source, 0⟩ := by
  show ByteCursor.mk (String.ofList source.toList) 0 = _
  rw [String.ofList_toList]

theorem position_eq (c : Cursor) : c.position = byteLength c.before.reverse :=
  (byteLength_reverse c.before).symm

/-- The place of a cursor is between two characters of its source. -/
theorem isValid_position (c : Cursor) : IsValid (String.ofList c.source) ⟨c.position⟩ := by
  rw [isValid_ofList_iff, position_eq]
  exact ⟨_, _, rfl, rfl⟩

/-- Moving over characters moves over their bytes. -/
theorem bytes_advance (n : Nat) (c : Cursor) :
    (c.advance n).bytes = c.bytes.moveBy (byteLength (c.rest.take n)) := by
  have hposition : (c.advance n).position = c.position + byteLength (c.rest.take n) := by
    rw [position, before_advance, byteLength_append, byteLength_reverse, Nat.add_comm]
    rfl
  rw [bytes, source_advance, hposition]
  rfl

/-- The source can be cut at the place of a cursor, and the rest is what is
    ahead. -/
theorem rest?_bytes (c : Cursor) : c.bytes.rest? = some (String.ofList c.rest) := by
  have hslice := slice?_append c.before.reverse c.rest []
  rw [List.append_nil, ← position_eq, ← utf8ByteSize_ofList_eq] at hslice
  exact hslice

theorem sliceFrom?_bytes (c : Cursor) (start : Nat) :
    c.bytes.sliceFrom? start = (c.sliceFrom? start).map String.ofList := by
  show slice? (String.ofList (c.before.reverse ++ c.rest)) start c.position = _
  rw [position_eq, slice?_front]
  rfl

/-- The next character is read at the bytes of the cursor. -/
theorem peek?_bytes (c : Cursor) : c.bytes.peek? = some c.peek? := by
  rw [ByteCursor.peek?, rest?_bytes, Option.map_some, String.toList_ofList]
  rfl

theorem peekAt?_bytes (c : Cursor) (offset : Nat) :
    c.bytes.peekAt? offset = some (c.peekAt? offset) := by
  have hslice := slice?_front c.rest [] offset
  rw [List.append_nil, ← utf8ByteSize_ofList_eq] at hslice
  rw [ByteCursor.peekAt?, rest?_bytes, Option.map_some, hslice, peekAt?]
  cases dropBytes? offset c.rest with
  | none => rfl
  | some back =>
      show some (String.ofList back).toList.head? = some back.head?
      rw [String.toList_ofList]

/-- Moving by a character never fails on bytes. -/
theorem advance?_bytes (c : Cursor) :
    c.bytes.advance? = some (c.peek?, (c.advance 1).bytes) := by
  rw [ByteCursor.advance?, peek?_bytes, bytes_advance, peek?]
  cases c.rest with
  | nil => rfl
  | cons ch rest => rfl

/-- A search never fails on bytes, whether it takes its match or not. -/
theorem search?_bytes (c : Cursor) (s : Search) (takes : Bool) :
    c.bytes.search? s takes = some ((c.match? s.pattern).map String.ofList,
      (if takes then c.skip s.pattern else c).bytes) := by
  rw [ByteCursor.search?, rest?_bytes, Option.bind_some]
  cases hfound : s.atStart? (String.ofList c.rest) with
  | none =>
      have hahead : s.pattern.ahead c.rest = [] := Search.ahead_eq_nil hfound
      rw [match?, skip, hahead]
      cases takes with
      | false => rfl
      | true => rfl
  | some found =>
      obtain ⟨hslice, hprefix, hne⟩ := Search.atStart?_eq_some hfound
      have hmatch : c.match? s.pattern = some (s.ahead c.rest) := match?_eq_some.mpr ⟨rfl, hne⟩
      -- the match is the front of the text ahead, so its characters are its bytes
      have hskip : (c.skip s.pattern).bytes
          = c.bytes.moveBy (String.ofList (s.ahead c.rest)).utf8ByteSize := by
        rw [skip, bytes_advance, utf8ByteSize_ofList_eq]
        show c.bytes.moveBy (byteLength (c.rest.take (s.ahead c.rest).length)) = _
        rw [← List.prefix_iff_eq_take.mp hprefix]
      rw [hmatch]
      show (slice? _ 0 found.2).map _ = _
      rw [hslice]
      cases takes with
      | false => rfl
      | true =>
          rw [if_pos rfl, hskip]
          rfl

/-- No request fails at the offset of a cursor, and it is answered as by the
    cursor. -/
theorem ask?_bytes (c : Cursor) (r : Request) :
    c.bytes.ask? r = some (c.answer r, (c.after r).bytes) := by
  cases r with
  | peek => rw [ByteCursor.ask?, peek?_bytes]; rfl
  | peekAt offset => rw [ByteCursor.ask?, peekAt?_bytes]; rfl
  | advance => rw [ByteCursor.ask?, advance?_bytes]; rfl
  | search s takes => exact c.search?_bytes s takes

/-- A place between characters is the offset of a cursor. -/
theorem exists_bytes_eq {b : ByteCursor} (h : IsValid b.source ⟨b.position⟩) :
    ∃ c : Cursor, c.bytes = b := by
  obtain ⟨source, position⟩ := b
  -- the text in front of the place and the text behind it are the cursor
  rw [← String.ofList_toList (s := source), isValid_ofList_iff] at h
  obtain ⟨front, back, heq, rfl⟩ := h
  refine ⟨⟨front.reverse, back⟩, ?_⟩
  rw [bytes, Cursor.source, position_eq, List.reverse_reverse, ← heq, String.ofList_toList]

/-- A request fails exactly where the offset is no place between characters,
    whatever is asked. -/
theorem ask?_eq_none_iff {b : ByteCursor} (r : Request) :
    b.ask? r = none ↔ ¬ IsValid b.source ⟨b.position⟩ := by
  constructor
  · rintro hfails hvalid
    obtain ⟨c, rfl⟩ := exists_bytes_eq hvalid
    cases hfails.symm.trans (c.ask?_bytes r)
  · intro hinvalid
    have hrest : b.rest? = none := dif_neg fun h => hinvalid h.2.1
    cases r with
    | peek => rw [ByteCursor.ask?, ByteCursor.peek?, hrest]; rfl
    | peekAt offset => rw [ByteCursor.ask?, ByteCursor.peekAt?, hrest]; rfl
    | advance => rw [ByteCursor.ask?, ByteCursor.advance?, ByteCursor.peek?, hrest]; rfl
    | search s takes => rw [ByteCursor.ask?, ByteCursor.search?, hrest]; rfl

/-- **BYTES NEVER FAIL**: requests to a cursor are answered alike on its
    bytes, and leave the bytes of where they leave the cursor. -/
theorem run?_bytes (c : Cursor) (rs : List Request) :
    c.bytes.run? rs = some (c.answers rs, (c.behind rs).bytes) := by
  induction rs generalizing c with
  | nil => rfl
  | cons r rs ih =>
      rw [ByteCursor.run?, ask?_bytes, Option.bind_some]
      show ((c.after r).bytes.run? rs).map _ = _
      rw [ih]
      rfl

/-! ## What requests keep -/

variable {c : Cursor} {start : Nat} {text : List Char}

/-- A search that takes its match takes what its pattern matches. -/
theorem taken_search (c : Cursor) (s : Search) :
    c.taken (.search s true) = String.ofList (s.pattern.ahead c.rest) := by
  show ((c.match? s.pattern).map String.ofList).getD "" = _
  rw [match?]
  split
  · next hnil =>
    rw [hnil]
    rfl
  · rfl

/-- A request moves the cursor past the characters that it takes. -/
theorem exists_after_eq (c : Cursor) (r : Request) :
    ∃ n, c.after r = c.advance n ∧ (c.taken r).toList = c.rest.take n := by
  cases r with
  | peek => exact ⟨0, rfl, rfl⟩
  | peekAt offset => exact ⟨0, rfl, rfl⟩
  | advance =>
      refine ⟨1, rfl, ?_⟩
      show ((c.rest.head?.map String.singleton).getD "").toList = _
      cases c.rest with
      | nil => rfl
      | cons ch rest => exact String.toList_singleton ch
  | search s takes =>
      cases takes with
      | false => exact ⟨0, rfl, rfl⟩
      | true =>
          refine ⟨(s.pattern.ahead c.rest).length, rfl, ?_⟩
          rw [taken_search, String.toList_ofList]
          exact List.prefix_iff_eq_take.mp (s.pattern.ahead_isPrefix c.rest)

theorem source_after (c : Cursor) (r : Request) : (c.after r).source = c.source := by
  obtain ⟨n, hafter, -⟩ := c.exists_after_eq r
  rw [hafter, source_advance]

/-- No requests change the source. -/
theorem source_behind (c : Cursor) (rs : List Request) : (c.behind rs).source = c.source := by
  induction rs generalizing c with
  | nil => rfl
  | cons r rs ih => exact (ih (c.after r)).trans (c.source_after r)

/-- A slice up to the cursor grows by what the cursor moves past. -/
theorem sliceFrom?_after (h : c.sliceFrom? start = some text) (r : Request) :
    (c.after r).sliceFrom? start = some (text ++ (c.taken r).toList) := by
  obtain ⟨n, hafter, htaken⟩ := c.exists_after_eq r
  obtain ⟨front, hbefore, hstart⟩ := dropBytes?_eq_some_iff.mp h
  rw [hafter, htaken, sliceFrom?, before_advance, List.reverse_append, List.reverse_reverse,
    hbefore, List.append_assoc, ← hstart]
  exact dropBytes?_append front _

/-- A slice goes on by what the requests take. -/
theorem sliceFrom?_behind (h : c.sliceFrom? start = some text) (rs : List Request) :
    (c.behind rs).sliceFrom? start = some (text ++ (c.takenBy rs).toList) := by
  induction rs generalizing c text with
  | nil =>
      rw [takenBy, String.toList_empty, List.append_nil]
      exact h
  | cons r rs ih =>
      rw [takenBy, String.toList_append, ← List.append_assoc]
      exact ih (sliceFrom?_after h r)

/-- What is granted of a cursor in the text `source` that was at the byte
    offset `start` and has taken the text `taken` since. -/
structure Keeps (source : String) (start : Nat) (taken : String) (c : Cursor) : Prop where
  place : IsValid source ⟨c.position⟩
  start_le : start ≤ c.position
  before : slice? source 0 c.position = some (String.ofList c.before.reverse)
  rest : slice? source c.position source.utf8ByteSize = some (String.ofList c.rest)
  halves : String.ofList c.before.reverse ++ String.ofList c.rest = source
  sliceFrom : c.sliceFrom? start = some taken.toList
  slice_eq : ∀ n, slice? source n c.position = (c.sliceFrom? n).map String.ofList
  fails : ∀ n, c.sliceFrom? n = none ↔ c.position < n ∨ ¬ IsValid source ⟨n⟩

/-- All of it is granted where the slice is what was taken. -/
theorem keeps_of_sliceFrom? {source taken : String} (hsource : c.source = source.toList)
    (h : c.sliceFrom? start = some taken.toList) : c.Keeps source start taken := by
  -- the source is what is behind the cursor and what is ahead of it
  have hhalves : source = String.ofList (c.before.reverse ++ c.rest) := by
    rw [← String.ofList_toList (s := source), ← hsource]
    rfl
  have hbytes : c.bytes = ⟨source, c.position⟩ := by
    rw [bytes, hsource, String.ofList_toList]
  have hslice : ∀ n, slice? source n c.position = (c.sliceFrom? n).map String.ofList := by
    intro n
    rw [← sliceFrom?_bytes, hbytes]
    rfl
  refine ⟨?_, ?_, ?_, ?_, ?_, h, hslice, fun n => ?_⟩
  · rw [hhalves]
    exact c.isValid_position
  · obtain ⟨front, hbefore, rfl⟩ := dropBytes?_eq_some_iff.mp h
    rw [position_eq, hbefore, byteLength_append]
    exact Nat.le_add_right _ _
  · rw [hslice, sliceFrom?, dropBytes?]
    rfl
  · rw [← rest?_bytes, hbytes]
    rfl
  · rw [hhalves, String.ofList_append]
  · rw [sliceFrom?, dropBytes?_eq_none_iff, isValid_front_iff c.rest, ← hhalves,
      ← position_eq, not_and_or, Nat.not_le]

/-- All of it is granted wherever a cursor is moved. -/
theorem Reaches.keeps {d : Cursor} (h : c.Reaches d) :
    ∃ taken, d.Keeps (String.ofList c.source) c.position taken := by
  obtain ⟨rs, rfl⟩ := reaches_iff_exists_behind.mp h
  have hstart : c.sliceFrom? c.position = some [] := c.sliceFrom?_advance 0
  refine ⟨c.takenBy rs, keeps_of_sliceFrom? ?_ (sliceFrom?_behind hstart rs)⟩
  rw [source_behind, String.toList_ofList]

end Cursor

/-- **A CURSOR KEEPS BETWEEN CHARACTERS**: wherever requests have led from the
    start of a text, the cursor is at a place of that text, no less far than
    before, with the text cut in two there.  The slice from an earlier place
    is what was taken since; a slice fails from beyond the cursor and from
    inside of a character.  The cursor as an offset fails at no request and
    answers the same. -/
theorem keeps_behind_requests (source : String) (earlier later : List Request) :
    let c := (Cursor.ofString source).behind earlier
    let d := c.behind later
    d.Keeps source c.position (c.takenBy later) ∧
      (ByteCursor.mk source 0).run? (earlier ++ later)
        = some ((Cursor.ofString source).answers (earlier ++ later), ⟨source, d.position⟩) := by
  intro c d
  have hsource : d.source = source.toList := by
    rw [Cursor.source_behind, Cursor.source_behind]
    rfl
  constructor
  · refine Cursor.keeps_of_sliceFrom? hsource ?_
    have hstart : c.sliceFrom? c.position = some [] := c.sliceFrom?_advance 0
    exact Cursor.sliceFrom?_behind hstart later
  · have hrun := (Cursor.ofString source).run?_bytes (earlier ++ later)
    have hbehind : (Cursor.ofString source).behind (earlier ++ later) = d :=
      Cursor.behind_append _ earlier later
    rw [hbehind, Cursor.bytes_ofString, Cursor.bytes, hsource, String.ofList_toList] at hrun
    exact hrun

/-- Behind a character of two bytes a number is searched for and taken.  One
    byte into that character every request fails. -/
theorem keeps_behind_requests_number :
    ∃ earlier later c, earlier = [Request.advance] ∧
      later = [.search Pattern.number.search true, .peekAt 1] ∧
      c = (Cursor.ofString "é1.5)b").behind earlier ∧ c.position = 2 ∧
      (c.behind later).position = 5 ∧ c.takenBy later = "1.5" ∧
      (c.behind later).Keeps "é1.5)b" 2 "1.5" ∧
      (ByteCursor.mk "é1.5)b" 0).run? (earlier ++ later)
        = some ([some "é", some "1.5", some "b"], ⟨"é1.5)b", 5⟩) ∧
      ∀ r, (ByteCursor.mk "é1.5)b" 1).ask? r = none := by
  obtain ⟨hkeeps, hrun⟩ := keeps_behind_requests "é1.5)b" [.advance]
    [.search Pattern.number.search true, .peekAt 1]
  have hstart : ((Cursor.ofString "é1.5)b").behind [.advance]).position = 2 := by decide
  have hstop : (((Cursor.ofString "é1.5)b").behind [.advance]).behind
      [.search Pattern.number.search true, .peekAt 1]).position = 5 := by decide +kernel
  have htaken : ((Cursor.ofString "é1.5)b").behind [.advance]).takenBy
      [.search Pattern.number.search true, .peekAt 1] = "1.5" := by decide +kernel
  have hanswers : (Cursor.ofString "é1.5)b").answers
      [.advance, .search Pattern.number.search true, .peekAt 1]
        = [some "é", some "1.5", some "b"] := by decide +kernel
  rw [hstart, htaken] at hkeeps
  rw [hstop] at hrun
  refine ⟨_, _, _, rfl, rfl, rfl, hstart, hstop, htaken, hkeeps,
    hrun.trans (congrArg (fun answers => some (answers, _)) hanswers), fun r => ?_⟩
  exact (Cursor.ask?_eq_none_iff r).mpr (by decide)

end FormulaBar
