import DOpenWrt.Rtp2httpd.HttpChunkedDecoder

/-!
# The language of the chunked decoder

The grammar of a chunked body, written down without the decoder's states and counters, and the proof that
the decoder ends with `DONE` on exactly the strings of this grammar. Each state of the decoder accepts
the strings that complete a message from there on; `Accepts` is unfolded state by state until a whole
chunk or a whole trailer line is read.
-/

namespace Rtp2httpd

def cr : UInt8 := 13
def lf : UInt8 := 10
def semicolon : UInt8 := 59

/-! ### The grammar -/

/-- The number written as hex digits behind one of value `n`, `none` where a byte is no digit. -/
def hexNumber (n : Nat) : List UInt8 → Option Nat
  | [] => some n
  | ch :: rest =>
    match httpChunkedHexValue ch with
    | some digit => hexNumber (n * 16 + digit) rest
    | none => none

/-- No control byte other than the tab. -/
def ExtensionByte (ch : UInt8) : Prop := 0x20 ≤ ch.toNat ∧ ch.toNat ≠ 0x7f ∨ ch.toNat = '\t'.toNat

/-- Nothing, or an extension behind its semicolon. -/
inductive Extension : List UInt8 → Prop
  | none : Extension []
  | some {text : List UInt8} (h : ∀ ch ∈ text, ExtensionByte ch) : Extension (semicolon :: text)

/-- A size line up to its carriage return, with the size it gives. -/
structure SizeLine (size : Nat) (digits ext : List UInt8) : Prop where
  digits_ne_nil : digits ≠ []
  number : hexNumber 0 digits = some size
  fits : size ≤ uint64Max
  extension : Extension ext
  length_le : (digits ++ ext ++ [cr]).length ≤ httpChunkedMaxSizeLine

def TrailerByte (ch : UInt8) : Prop := ch ≠ cr ∧ ch ≠ lf

/-- Trailer lines and the empty line that ends the message. -/
inductive Trailer : List UInt8 → Prop
  | last : Trailer [cr, lf]
  | line {text rest : List UInt8} (hne : text ≠ []) (h : ∀ ch ∈ text, TrailerByte ch) (hrest : Trailer rest) :
    Trailer (text ++ cr :: lf :: rest)

/-- A chunked message and the data of its chunks. -/
inductive Chunked : List UInt8 → List (List UInt8) → Prop
  | last {digits ext trailer : List UInt8} (hline : SizeLine 0 digits ext) (htrailer : Trailer trailer)
      (hlen : trailer.length ≤ httpChunkedMaxTrailerSize) :
    Chunked (digits ++ ext ++ cr :: lf :: trailer) []
  | chunk {digits ext data rest : List UInt8} {chunks : List (List UInt8)}
      (hline : SizeLine data.length digits ext) (hdata : data ≠ []) (hrest : Chunked rest chunks) :
    Chunked (digits ++ ext ++ cr :: lf :: (data ++ cr :: lf :: rest)) (data :: chunks)

theorem toNat_eq_cr {ch : UInt8} : ch.toNat = '\r'.toNat ↔ ch = cr := UInt8.toNat_inj (b := cr)

theorem toNat_eq_lf {ch : UInt8} : ch.toNat = '\n'.toNat ↔ ch = lf := UInt8.toNat_inj (b := lf)

theorem toNat_eq_semicolon {ch : UInt8} : ch.toNat = ';'.toNat ↔ ch = semicolon :=
  UInt8.toNat_inj (b := semicolon)

theorem le_hexNumber {n m : Nat} {digits : List UInt8} (h : hexNumber n digits = some m) : n ≤ m := by
  induction digits generalizing n with
  | nil => exact (Option.some.inj h).le
  | cons ch rest ih =>
    unfold hexNumber at h
    split at h
    · have := ih h
      omega
    · cases h

/-! ### What a state accepts -/

section Accepts

variable {ω : Type} {emit : ω → List UInt8 → ω × Bool}

/-- From this decoder the input completes a message, with the given body. -/
def Accepts (emit : ω → List UInt8 → ω × Bool) (d : HttpChunkedDecoder) (sink : ω)
    (input body : List UInt8) : Prop :=
  (feedLoop emit d sink input).result = .done ∧ (feedLoop emit d sink input).emitted.flatten = body

variable {d d' : HttpChunkedDecoder} {sink : ω} {ch : UInt8} {input rest body : List UInt8}

theorem not_accepts_nil (h : d.state ≠ .done) : ¬ Accepts emit d sink [] body := by
  rintro ⟨hdone, -⟩
  rw [feedLoop_nil] at hdone
  simp only [if_neg h] at hdone
  cases hdone

theorem not_accepts_fail (h : switchState d ch (rest.length + 1) = .fail d') :
    ¬ Accepts emit d sink (ch :: rest) body := by
  rintro ⟨hdone, -⟩
  rw [feedLoop_fail emit sink h] at hdone
  cases hdone

theorem accepts_next (h : switchState d ch (rest.length + 1) = .next d') :
    Accepts emit d sink (ch :: rest) body ↔ Accepts emit d' sink rest body := by
  unfold Accepts
  rw [feedLoop_next emit sink h]
  rfl

theorem accepts_finish (h : switchState d ch (rest.length + 1) = .finish d') :
    Accepts emit d sink (ch :: rest) body ↔ rest = [] ∧ body = [] := by
  unfold Accepts
  rw [feedLoop_finish emit sink h]
  cases rest with
  | nil => simp [eq_comm]
  | cons => simp

/-! ### Size lines -/

theorem accepts_sizeLf (hd : d.state = .sizeLf) :
    Accepts emit d sink input body ↔ ∃ rest, input = lf :: rest ∧
      Accepts emit { d with
        chunkRemaining := d.chunkSize
        state := if d.chunkSize = 0 then .trailerStart else .data } sink rest body := by
  cases input with
  | nil => exact iff_of_false (not_accepts_nil (by simp [hd])) nofun
  | cons ch rest =>
    by_cases hch : ch = lf
    · have h : switchState d ch (rest.length + 1) = .next { d with
          chunkRemaining := d.chunkSize
          state := if d.chunkSize = 0 then .trailerStart else .data } := by
        unfold switchState
        rw [hd]
        simp only [ne_eq, toNat_eq_lf, hch, not_true_eq_false, if_false]
      rw [accepts_next h]
      simp [hch]
    · have h : switchState d ch (rest.length + 1) = .fail d := by
        unfold switchState
        rw [hd]
        simp only [ne_eq, toNat_eq_lf, hch, not_false_eq_true, if_true]
      exact iff_of_false (not_accepts_fail h) (by simp [hch])

/-- The decoder behind the carriage return of a size line. -/
def HttpChunkedDecoder.sizeLine (d : HttpChunkedDecoder) (size n : Nat) : HttpChunkedDecoder :=
  { d with state := .sizeLf, chunkSize := size, sizeLineLength := d.sizeLineLength + n, sawSizeDigit := true }

/-- A line starts with its end, or with a byte of its text. -/
theorem exists_line_cons {P : UInt8 → Prop} {Q : List UInt8 → List UInt8 → Prop} :
    (∃ text tail, ch :: rest = text ++ cr :: tail ∧ (∀ b ∈ text, P b) ∧ Q text tail) ↔
      ch = cr ∧ Q [] rest ∨
        P ch ∧ ∃ text tail, rest = text ++ cr :: tail ∧ (∀ b ∈ text, P b) ∧ Q (ch :: text) tail := by
  constructor
  · rintro ⟨text, tail, heq, hP, hQ⟩
    cases text with
    | nil =>
      injection heq with hch hrest
      subst hrest
      exact .inl ⟨hch, hQ⟩
    | cons b text =>
      injection heq with hch hrest
      subst hch
      exact .inr ⟨hP ch (by simp), text, tail, hrest, fun b hb => hP b (by simp [hb]), hQ⟩
  · rintro (⟨rfl, hQ⟩ | ⟨hch, text, tail, rfl, hP, hQ⟩)
    · exact ⟨[], rest, rfl, by simp, hQ⟩
    · refine ⟨ch :: text, tail, rfl, fun b hb => ?_, hQ⟩
      rcases List.mem_cons.1 hb with rfl | hb
      · exact hch
      · exact hP b hb

theorem not_extensionByte_cr : ¬ ExtensionByte cr := by
  unfold ExtensionByte
  decide

theorem extensionByte_iff {ch : UInt8} : ExtensionByte ch ↔
    ¬ (ch.toNat = '\n'.toNat ∨ (ch.toNat < 0x20 ∧ ch.toNat ≠ '\t'.toNat) ∨ ch.toNat = 0x7f) := by
  have htab : '\t'.toNat = 9 := rfl
  have hlf : '\n'.toNat = 10 := rfl
  unfold ExtensionByte
  omega

theorem accepts_extension (hd : d.state = .extension) (hsaw : d.sawSizeDigit = true) :
    Accepts emit d sink input body ↔ ∃ text rest, input = text ++ cr :: rest ∧
      (∀ ch ∈ text, ExtensionByte ch) ∧ d.sizeLineLength + (text.length + 1) ≤ httpChunkedMaxSizeLine ∧
      Accepts emit (d.sizeLine d.chunkSize (text.length + 1)) sink rest body := by
  induction input generalizing d with
  | nil => exact iff_of_false (not_accepts_nil (by simp [hd])) (by simp)
  | cons ch rest ih =>
    rw [exists_line_cons]
    by_cases hlen : d.countSizeByte.sizeLineLength ≤ httpChunkedMaxSizeLine
    · rcases eq_or_ne ch cr with rfl | hcr
      · have h : switchState d cr (rest.length + 1) = .next (d.sizeLine d.chunkSize 1) := by
          unfold switchState HttpChunkedDecoder.sizeLine
          rw [hd]
          simp only [not_lt.2 hlen, if_false, toNat_eq_cr, if_true, ← hsaw]
          rfl
        rw [accepts_next h]
        simp only [not_extensionByte_cr, false_and, or_false, true_and]
        exact (and_iff_right hlen).symm
      · rw [or_iff_right (fun h => hcr h.1)]
        by_cases hbyte : ExtensionByte ch
        · have h : switchState d ch (rest.length + 1) = .next d.countSizeByte := by
            unfold switchState
            rw [hd]
            simp only [not_lt.2 hlen, if_false, toNat_eq_cr, hcr, extensionByte_iff.1 hbyte]
          rw [accepts_next h, ih (d := d.countSizeByte) hd hsaw, and_iff_right hbyte]
          simp only [HttpChunkedDecoder.sizeLine, HttpChunkedDecoder.countSizeByte, List.length_cons,
            Nat.add_assoc, Nat.add_comm 1]
        · have h : switchState d ch (rest.length + 1) = .fail d.countSizeByte := by
            unfold switchState
            rw [hd]
            simp only [not_lt.2 hlen, if_false, toNat_eq_cr, hcr, not_not.1 (mt extensionByte_iff.2 hbyte),
              if_true]
          exact iff_of_false (not_accepts_fail h) fun h => hbyte h.1
    · have h : switchState d ch (rest.length + 1) = .fail d.countSizeByte := by
        unfold switchState
        rw [hd]
        simp only [not_le.1 hlen, if_true]
      refine iff_of_false (not_accepts_fail h) ?_
      unfold HttpChunkedDecoder.countSizeByte at hlen
      rintro (⟨-, hle, -⟩ | ⟨-, text, tail, -, -, hle, -⟩) <;> simp at hle hlen <;> omega

theorem hexValue_cr : httpChunkedHexValue cr = none := by decide

theorem hexValue_semicolon : httpChunkedHexValue semicolon = none := by decide

theorem httpChunkedHexValue_lt {digit : Nat} (h : httpChunkedHexValue ch = some digit) : digit < 16 := by
  unfold httpChunkedHexValue at h
  simp only [Char.toNat, Char.reduceVal, UInt32.reduceToNat] at h
  split at h
  · injection h
    omega
  · split at h
    · injection h
      omega
    · split at h
      · injection h
        omega
      · cases h

/-- The decoder behind a digit of a size line. -/
def HttpChunkedDecoder.sizeDigit (d : HttpChunkedDecoder) (digit : Nat) : HttpChunkedDecoder :=
  { d.countSizeByte with chunkSize := d.chunkSize * 16 + digit, sawSizeDigit := true }

/-- The decoder behind the semicolon of a size line. -/
def HttpChunkedDecoder.sizeSemicolon (d : HttpChunkedDecoder) : HttpChunkedDecoder :=
  { d.countSizeByte with state := .extension }

theorem HttpChunkedDecoder.sizeSemicolon_sizeLine (d : HttpChunkedDecoder) (size n : Nat) :
    d.sizeSemicolon.sizeLine size n = d.sizeLine size (n + 1) := by
  simp [sizeSemicolon, sizeLine, countSizeByte, Nat.add_comm, Nat.add_left_comm]

theorem HttpChunkedDecoder.sizeDigit_sizeLine (d : HttpChunkedDecoder) (digit size n : Nat) :
    (d.sizeDigit digit).sizeLine size n = d.sizeLine size (n + 1) := by
  simp [sizeDigit, sizeLine, countSizeByte, Nat.add_comm, Nat.add_left_comm]

/-- The rest of a size line starts with a digit, with a semicolon or with its end. -/
theorem exists_sizeLine_cons {n : Nat} {Q : List UInt8 → List UInt8 → List UInt8 → Nat → Prop} :
    (∃ digits ext tail size, ch :: rest = digits ++ ext ++ cr :: tail ∧ hexNumber n digits = some size ∧
      Extension ext ∧ Q digits ext tail size) ↔
      (∃ digit, httpChunkedHexValue ch = some digit ∧ ∃ digits ext tail size,
        rest = digits ++ ext ++ cr :: tail ∧ hexNumber (n * 16 + digit) digits = some size ∧
        Extension ext ∧ Q (ch :: digits) ext tail size) ∨
      (ch = semicolon ∧ ∃ text tail, rest = text ++ cr :: tail ∧ (∀ b ∈ text, ExtensionByte b) ∧
        Q [] (semicolon :: text) tail n) ∨
      ch = cr ∧ Q [] [] rest n := by
  constructor
  · rintro ⟨digits, ext, tail, size, heq, hnum, hext, hQ⟩
    cases digits with
    | cons b digits =>
      injection heq with hb hrest
      subst hb
      unfold hexNumber at hnum
      split at hnum
      · next digit hdigit => exact .inl ⟨digit, hdigit, digits, ext, tail, size, hrest, hnum, hext, hQ⟩
      · cases hnum
    | nil =>
      injection hnum with hn
      subst hn
      cases hext with
      | none =>
        injection heq with hch hrest
        subst hrest
        exact .inr (.inr ⟨hch, hQ⟩)
      | @some text htext =>
        injection heq with hch hrest
        exact .inr (.inl ⟨hch, text, tail, hrest, htext, hQ⟩)
  · rintro (⟨digit, hdigit, digits, ext, tail, size, rfl, hnum, hext, hQ⟩ | ⟨rfl, text, tail, rfl, htext, hQ⟩ |
      ⟨rfl, hQ⟩)
    · refine ⟨ch :: digits, ext, tail, size, rfl, ?_, hext, hQ⟩
      rw [hexNumber, hdigit]
      exact hnum
    · exact ⟨[], semicolon :: text, tail, n, rfl, rfl, .some htext, hQ⟩
    · exact ⟨[], [], rest, n, rfl, rfl, .none, hQ⟩

theorem switchState_size_digit (hd : d.state = .size) {digit : Nat} (hch : httpChunkedHexValue ch = some digit)
    (hlen : d.sizeLineLength + 1 ≤ httpChunkedMaxSizeLine) (available : Nat) :
    switchState d ch available =
      if uint64Max < d.chunkSize * 16 + digit then .fail d.countSizeByte else .next (d.sizeDigit digit) := by
  have hdigit := httpChunkedHexValue_lt hch
  have hmax : 16 ≤ uint64Max := by decide
  have hguard : (uint64Max - digit) / 16 < d.chunkSize ↔ uint64Max < d.chunkSize * 16 + digit := by omega
  have hlen' : ¬ httpChunkedMaxSizeLine < d.countSizeByte.sizeLineLength := not_lt.2 hlen
  unfold switchState
  simp only [hd, hlen', if_false, hch]
  exact if_congr hguard rfl rfl

theorem switchState_size_other (hd : d.state = .size) (hch : httpChunkedHexValue ch = none)
    (hlen : d.sizeLineLength + 1 ≤ httpChunkedMaxSizeLine) (available : Nat) :
    switchState d ch available =
      if ch = semicolon ∧ d.sawSizeDigit then .next d.sizeSemicolon
      else if ch = cr ∧ d.sawSizeDigit then .next (d.sizeLine d.chunkSize 1)
      else .fail d.countSizeByte := by
  have hlen' : ¬ httpChunkedMaxSizeLine < d.countSizeByte.sizeLineLength := not_lt.2 hlen
  unfold switchState
  simp only [hd, hlen', if_false, hch, toNat_eq_semicolon, toNat_eq_cr]
  refine if_congr Iff.rfl rfl ?_
  by_cases h : ch = cr ∧ d.sawSizeDigit = true
  · rw [if_pos h]
    refine (if_pos h).trans ?_
    simp only [HttpChunkedDecoder.sizeLine, HttpChunkedDecoder.countSizeByte, h.2]
  · rw [if_neg h]
    exact if_neg h

theorem switchState_size_long (hd : d.state = .size)
    (hlen : ¬ d.sizeLineLength + 1 ≤ httpChunkedMaxSizeLine) (available : Nat) :
    switchState d ch available = .fail d.countSizeByte := by
  unfold switchState
  rw [hd]
  exact if_pos (not_le.1 hlen)

/-- A size line, from somewhere within its digits on. -/
theorem accepts_size (hd : d.state = .size) :
    Accepts emit d sink input body ↔ ∃ digits ext rest size, input = digits ++ ext ++ cr :: rest ∧
      hexNumber d.chunkSize digits = some size ∧ Extension ext ∧
      (d.sawSizeDigit = true ∨ digits ≠ []) ∧ (digits ≠ [] → size ≤ uint64Max) ∧
      d.sizeLineLength + (digits ++ ext ++ [cr]).length ≤ httpChunkedMaxSizeLine ∧
      Accepts emit (d.sizeLine size (digits ++ ext ++ [cr]).length) sink rest body := by
  induction input generalizing d with
  | nil => exact iff_of_false (not_accepts_nil (by simp [hd])) (by simp)
  | cons ch rest ih =>
    rw [exists_sizeLine_cons]
    by_cases hlen : d.sizeLineLength + 1 ≤ httpChunkedMaxSizeLine
    · cases hch : httpChunkedHexValue ch with
      | some digit =>
        have hcr : ch ≠ cr := by
          rintro rfl
          rw [hexValue_cr] at hch
          cases hch
        have hsemi : ch ≠ semicolon := by
          rintro rfl
          rw [hexValue_semicolon] at hch
          cases hch
        have hswitch := switchState_size_digit hd hch hlen (rest.length + 1)
        simp only [hcr, hsemi, false_and, or_false, Option.some.injEq, exists_eq_left']
        split at hswitch
        · next hbig =>
          refine iff_of_false (not_accepts_fail hswitch) ?_
          rintro ⟨digits, ext, tail, size, -, hnum, -, -, hsize, -⟩
          exact absurd ((le_hexNumber hnum).trans (hsize (by simp))) (not_le.2 hbig)
        · next hfits =>
          rw [accepts_next hswitch, ih (d := d.sizeDigit digit) hd]
          refine exists_congr fun digits => exists_congr fun ext => exists_congr fun tail =>
            exists_congr fun size => and_congr_right fun _ => and_congr_right fun hnum => and_congr_right fun _ => ?_
          have hsize : digits = [] → size ≤ uint64Max := by
            rintro rfl
            exact (Option.some.inj hnum).symm.le.trans (not_lt.1 hfits)
          have hsaw : (d.sizeDigit digit).sawSizeDigit = true ∨ digits ≠ [] := .inl rfl
          have hsaw' : d.sawSizeDigit = true ∨ ch :: digits ≠ [] := .inr (by simp)
          rw [and_iff_right hsaw, and_iff_right hsaw', HttpChunkedDecoder.sizeDigit_sizeLine]
          refine and_congr ⟨fun h _ => ?_, fun h _ => h (by simp)⟩ (and_congr ?_ Iff.rfl)
          · exact (em (digits = [])).elim hsize h
          · simp only [HttpChunkedDecoder.sizeDigit, HttpChunkedDecoder.countSizeByte, List.cons_append,
              List.length_cons]
            omega
      | none =>
        have hswitch := switchState_size_other hd hch hlen (rest.length + 1)
        simp only [reduceCtorEq, false_and, exists_false, false_or, ne_eq, not_true_eq_false, or_false,
          false_imp_iff, true_and]
        split at hswitch
        · next h =>
          obtain ⟨rfl, hsaw⟩ := h
          rw [accepts_next hswitch, accepts_extension (d := d.sizeSemicolon) rfl hsaw,
            or_iff_left (fun h => absurd h.1 (by decide))]
          simp only [hsaw, true_and, HttpChunkedDecoder.sizeSemicolon_sizeLine, List.nil_append, List.cons_append,
            List.length_cons, List.length_append, List.length_nil]
          simp only [HttpChunkedDecoder.sizeSemicolon, HttpChunkedDecoder.countSizeByte, Nat.zero_add,
            Nat.add_assoc, Nat.add_comm 1, Nat.reduceAdd]
        · next hsemi =>
          split at hswitch
          · next h =>
            obtain ⟨rfl, hsaw⟩ := h
            rw [accepts_next hswitch, or_iff_right (fun h => absurd h.1 (by decide))]
            simp only [hsaw, true_and, List.nil_append, List.length_singleton]
            exact (and_iff_right hlen).symm
          · next hcr =>
            refine iff_of_false (not_accepts_fail hswitch) ?_
            rintro (⟨rfl, _, _, _, _, hsaw, _⟩ | ⟨rfl, hsaw, _⟩)
            · exact hsemi ⟨rfl, hsaw⟩
            · exact hcr ⟨rfl, hsaw⟩
    · refine iff_of_false (not_accepts_fail (switchState_size_long hd hlen _)) ?_
      rintro (⟨_, _, _, _, _, _, _, _, _, _, _, hle, _⟩ | ⟨_, _, _, _, _, _, _, hle, _⟩ | ⟨_, _, _, hle, _⟩) <;>
        simp at hle hlen <;> omega

/-! ### Trailers -/

/-- The decoder in a trailer line, `n` bytes further on. -/
def HttpChunkedDecoder.inTrailer (d : HttpChunkedDecoder) (state : HttpChunkedState) (n : Nat) :
    HttpChunkedDecoder :=
  { d with state := state, trailerSize := d.trailerSize + n }

theorem accepts_trailerEndLf (hd : d.state = .trailerEndLf) :
    Accepts emit d sink input body ↔
      input = [lf] ∧ d.trailerSize + 1 ≤ httpChunkedMaxTrailerSize ∧ body = [] := by
  cases input with
  | nil => exact iff_of_false (not_accepts_nil (by simp [hd])) nofun
  | cons ch rest =>
    by_cases h : d.trailerSize + 1 ≤ httpChunkedMaxTrailerSize ∧ ch = lf
    · have hswitch : switchState d ch (rest.length + 1) = .finish { d.countTrailerByte with state := .done } := by
        unfold switchState
        rw [hd]
        exact if_neg fun hn => hn.elim (not_lt.2 h.1) fun hn => hn (toNat_eq_lf.2 h.2)
      rw [accepts_finish hswitch]
      simp [h.1, h.2]
    · have hswitch : switchState d ch (rest.length + 1) = .fail d.countTrailerByte := by
        unfold switchState
        rw [hd]
        refine if_pos (or_iff_not_and_not.2 fun hn => h ⟨not_lt.1 hn.1, toNat_eq_lf.1 (not_not.1 hn.2)⟩)
      refine iff_of_false (not_accepts_fail hswitch) ?_
      rintro ⟨heq, hlen, -⟩
      injection heq with hch _
      exact h ⟨hlen, hch⟩

theorem accepts_trailerLf (hd : d.state = .trailerLf) :
    Accepts emit d sink input body ↔ ∃ rest, input = lf :: rest ∧
      d.trailerSize + 1 ≤ httpChunkedMaxTrailerSize ∧ Accepts emit (d.inTrailer .trailerStart 1) sink rest body := by
  cases input with
  | nil => exact iff_of_false (not_accepts_nil (by simp [hd])) nofun
  | cons ch rest =>
    by_cases h : d.trailerSize + 1 ≤ httpChunkedMaxTrailerSize ∧ ch = lf
    · have hswitch : switchState d ch (rest.length + 1) = .next (d.inTrailer .trailerStart 1) := by
        unfold switchState
        rw [hd]
        exact if_neg fun hn => hn.elim (not_lt.2 h.1) fun hn => hn (toNat_eq_lf.2 h.2)
      rw [accepts_next hswitch]
      simp [h.1, h.2]
    · have hswitch : switchState d ch (rest.length + 1) = .fail d.countTrailerByte := by
        unfold switchState
        rw [hd]
        refine if_pos (or_iff_not_and_not.2 fun hn => h ⟨not_lt.1 hn.1, toNat_eq_lf.1 (not_not.1 hn.2)⟩)
      refine iff_of_false (not_accepts_fail hswitch) ?_
      rintro ⟨rest', heq, hlen, -⟩
      injection heq with hch _
      exact h ⟨hlen, hch⟩

theorem switchState_trailer (hd : d.state = .trailer ∨ d.state = .trailerStart) (available : Nat) :
    switchState d ch available =
      if d.trailerSize + 1 ≤ httpChunkedMaxTrailerSize ∧ ch ≠ lf then
        .next (d.inTrailer
          (if ch ≠ cr then .trailer else if d.state = .trailer then .trailerLf else .trailerEndLf) 1)
      else .fail d.countTrailerByte := by
  by_cases hlen : d.trailerSize + 1 ≤ httpChunkedMaxTrailerSize
  · have hlen' : ¬ httpChunkedMaxTrailerSize < d.countTrailerByte.trailerSize := not_lt.2 hlen
    have hlf : cr ≠ lf := by decide
    rcases hd with hd | hd <;> unfold switchState <;>
      simp only [hd, hlen, hlen', if_false, toNat_eq_cr, toNat_eq_lf, true_and, ne_eq, reduceCtorEq, ite_not]
    · rcases eq_or_ne ch cr with rfl | hcr
      · rw [if_pos rfl, if_neg hlf, if_pos rfl]
        rfl
      · rw [if_neg hcr, if_neg hcr]
        exact if_congr Iff.rfl rfl (by rw [← hd]; rfl)
    · rcases eq_or_ne ch cr with rfl | hcr
      · rw [if_pos rfl, if_neg hlf, if_pos rfl]
        rfl
      · rw [if_neg hcr, if_neg hcr]
        rfl
  · have hlen' : httpChunkedMaxTrailerSize < d.countTrailerByte.trailerSize := not_le.1 hlen
    rw [if_neg fun h => hlen h.1]
    rcases hd with hd | hd <;> unfold switchState <;> rw [hd] <;> exact if_pos hlen'

theorem accepts_trailer (hd : d.state = .trailer) :
    Accepts emit d sink input body ↔ ∃ text rest, input = text ++ cr :: rest ∧ (∀ ch ∈ text, TrailerByte ch) ∧
      d.trailerSize + (text.length + 1) ≤ httpChunkedMaxTrailerSize ∧
      Accepts emit (d.inTrailer .trailerLf (text.length + 1)) sink rest body := by
  induction input generalizing d with
  | nil => exact iff_of_false (not_accepts_nil (by simp [hd])) (by simp)
  | cons ch rest ih =>
    have hswitch := @switchState_trailer d ch (.inl hd) (rest.length + 1)
    rw [exists_line_cons]
    split at hswitch
    · next h =>
      obtain ⟨hlen, hlf⟩ := h
      rw [accepts_next hswitch]
      rcases eq_or_ne ch cr with rfl | hcr
      · have hbyte : ¬ TrailerByte cr := fun h => h.1 rfl
        simp only [hbyte, hlen, ne_eq, not_true_eq_false, if_false, false_and, or_false, true_and,
          List.length_nil, Nat.zero_add]
      · rw [if_pos hcr, ih (d := d.inTrailer .trailer 1) rfl]
        simp only [hcr, false_and, false_or, and_iff_right (show TrailerByte ch from ⟨hcr, hlf⟩),
          HttpChunkedDecoder.inTrailer, List.length_cons, Nat.add_assoc, Nat.add_comm 1]
    · next h =>
      refine iff_of_false (not_accepts_fail hswitch) ?_
      rintro (⟨rfl, hlen, -⟩ | ⟨hbyte, text, tail, -, -, hlen, -⟩)
      · exact h ⟨hlen, by decide⟩
      · refine h ⟨?_, hbyte.2⟩
        rw [List.length_cons] at hlen
        omega

theorem trailer_cons : Trailer (ch :: rest) ↔ ch = cr ∧ rest = [lf] ∨
    TrailerByte ch ∧ ∃ text tail, rest = text ++ cr :: tail ∧ (∀ b ∈ text, TrailerByte b) ∧
      ∃ rest', tail = lf :: rest' ∧ Trailer rest' := by
  constructor
  · intro h
    generalize hin : ch :: rest = input at h
    cases h with
    | last =>
      injection hin with hch hrest
      exact .inl ⟨hch, hrest⟩
    | @line text rest' hne hbyte htail =>
      cases text with
      | nil => contradiction
      | cons b text =>
        injection hin with hch hrest
        subst hch
        exact .inr ⟨hbyte ch (by simp), text, lf :: rest', hrest, fun b hb => hbyte b (by simp [hb]), rest', rfl, htail⟩
  · rintro (⟨rfl, rfl⟩ | ⟨hch, text, tail, rfl, htext, rest', rfl, htail⟩)
    · exact .last
    · refine @Trailer.line (ch :: text) _ (by simp) (fun b hb => ?_) htail
      rcases List.mem_cons.1 hb with rfl | hb
      · exact hch
      · exact htext b hb

theorem not_trailer_nil : ¬ Trailer [] := by
  intro h
  generalize hin : [] = input at h
  cases h with
  | last => cases hin
  | line => simp at hin

theorem accepts_trailerStart (hd : d.state = .trailerStart) :
    Accepts emit d sink input body ↔
      Trailer input ∧ d.trailerSize + input.length ≤ httpChunkedMaxTrailerSize ∧ body = [] := by
  induction hn : input.length using Nat.strong_induction_on generalizing d input with
  | _ n ih =>
  subst hn
  cases input with
  | nil => exact iff_of_false (not_accepts_nil (by simp [hd])) fun h => not_trailer_nil h.1
  | cons ch rest =>
    have hswitch := @switchState_trailer d ch (.inr hd) (rest.length + 1)
    rw [trailer_cons]
    split at hswitch
    · next h =>
      obtain ⟨hlen, hlf⟩ := h
      rw [accepts_next hswitch]
      rcases eq_or_ne ch cr with rfl | hcr
      · have hbyte : ¬ TrailerByte cr := fun h => h.1 rfl
        simp only [hbyte, hd, ne_eq, not_true_eq_false, if_false, false_and, or_false, true_and, reduceCtorEq]
        rw [accepts_trailerEndLf rfl]
        refine and_congr_right ?_
        rintro rfl
        rfl
      · rw [if_pos hcr, accepts_trailer (d := d.inTrailer .trailer 1) rfl]
        simp only [hcr, false_and, false_or, and_iff_right (show TrailerByte ch from ⟨hcr, hlf⟩)]
        constructor
        · rintro ⟨text, tail, rfl, htext, hle, hacc⟩
          rw [accepts_trailerLf rfl] at hacc
          obtain ⟨rest', rfl, hle', hacc⟩ := hacc
          have := (ih rest'.length (by simp; omega) rfl rfl).1 hacc
          simp only [HttpChunkedDecoder.inTrailer] at this
          refine ⟨⟨text, _, rfl, htext, rest', rfl, this.1⟩, ?_, this.2.2⟩
          simp only [List.length_cons, List.length_append]
          omega
        · rintro ⟨⟨text, tail, rfl, htext, rest', rfl, htrailer⟩, hle, rfl⟩
          simp only [List.length_cons, List.length_append] at hle
          refine ⟨text, _, rfl, htext, ?_, ?_⟩
          · simp only [HttpChunkedDecoder.inTrailer]
            omega
          · rw [accepts_trailerLf rfl]
            refine ⟨rest', rfl, ?_, (ih rest'.length (by simp; omega) rfl rfl).2 ⟨htrailer, ?_, rfl⟩⟩
            · simp only [HttpChunkedDecoder.inTrailer]
              omega
            · simp only [HttpChunkedDecoder.inTrailer]
              omega
    · next h =>
      refine iff_of_false (not_accepts_fail hswitch) ?_
      rintro ⟨htrailer, hlen, -⟩
      rw [List.length_cons] at hlen
      refine h ⟨by omega, ?_⟩
      rcases htrailer with ⟨rfl, -⟩ | ⟨hbyte, -⟩
      · decide
      · exact hbyte.2

/-! ### Chunks -/

theorem accepts_emit {n : Nat} (h : switchState d ch (rest.length + 1) = .emit n d') (hn : n ≠ 0)
    (hemit : ∀ s run, (emit s run).2 = true) :
    Accepts emit d sink (ch :: rest) body ↔ ∃ body', body = (ch :: rest).take n ++ body' ∧
      Accepts emit d' (emit sink ((ch :: rest).take n)).1 ((ch :: rest).drop n) body' := by
  unfold Accepts
  rw [feedLoop_emit emit sink h hn (hemit ..)]
  simp only [Feed.after, List.singleton_append, List.flatten_cons]
  constructor
  · rintro ⟨hdone, rfl⟩
    exact ⟨_, rfl, hdone, rfl⟩
  · rintro ⟨body', rfl, hdone, rfl⟩
    exact ⟨hdone, rfl⟩

/-- The decoder at the start of a chunk. -/
def HttpChunkedDecoder.nextChunk (d : HttpChunkedDecoder) : HttpChunkedDecoder :=
  { d with state := .size, chunkSize := 0, sizeLineLength := 0, sawSizeDigit := false }

theorem accepts_dataLf (hd : d.state = .dataLf) :
    Accepts emit d sink input body ↔ ∃ rest, input = lf :: rest ∧ Accepts emit d.nextChunk sink rest body := by
  cases input with
  | nil => exact iff_of_false (not_accepts_nil (by simp [hd])) nofun
  | cons ch rest =>
    rcases eq_or_ne ch lf with rfl | hch
    · have h : switchState d lf (rest.length + 1) = .next d.nextChunk := by
        unfold switchState
        rw [hd]
        rfl
      rw [accepts_next h]
      simp
    · have h : switchState d ch (rest.length + 1) = .fail d := by
        unfold switchState
        rw [hd]
        exact if_pos fun h => hch (toNat_eq_lf.1 h)
      exact iff_of_false (not_accepts_fail h) (by simp [hch])

theorem accepts_dataCr (hd : d.state = .dataCr) :
    Accepts emit d sink input body ↔ ∃ rest, input = cr :: lf :: rest ∧ Accepts emit d.nextChunk sink rest body := by
  cases input with
  | nil => exact iff_of_false (not_accepts_nil (by simp [hd])) nofun
  | cons ch rest =>
    rcases eq_or_ne ch cr with rfl | hch
    · have h : switchState d cr (rest.length + 1) = .next { d with state := .dataLf } := by
        unfold switchState
        rw [hd]
        rfl
      rw [accepts_next h, accepts_dataLf rfl]
      simp only [List.cons.injEq, true_and]
      rfl
    · have h : switchState d ch (rest.length + 1) = .fail d := by
        unfold switchState
        rw [hd]
        exact if_pos fun h => hch (toNat_eq_cr.1 h)
      exact iff_of_false (not_accepts_fail h) (by simp [hch])

theorem accepts_data (hd : d.state = .data) (hr : d.chunkRemaining ≠ 0)
    (hemit : ∀ s run, (emit s run).2 = true) :
    Accepts emit d sink input body ↔ ∃ data rest body', input = data ++ cr :: lf :: rest ∧
      data.length = d.chunkRemaining ∧ body = data ++ body' ∧
      Accepts emit (d.advance d.chunkRemaining).nextChunk (emit sink data).1 rest body' := by
  cases input with
  | nil => exact iff_of_false (not_accepts_nil (by simp [hd])) (by simp)
  | cons ch tail =>
    have hswitch := switchState_data hd ch (tail.length + 1)
    rcases Nat.lt_or_ge tail.length d.chunkRemaining.pred with hlt | hge
    · -- the input ends within the chunk
      have hmin : min d.chunkRemaining (tail.length + 1) = tail.length + 1 := by
        rw [Nat.pred_eq_sub_one] at hlt
        omega
      rw [hmin] at hswitch
      rw [accepts_emit hswitch (by simp) hemit]
      refine iff_of_false ?_ ?_
      · rintro ⟨body', -, hacc⟩
        rw [List.drop_eq_nil_of_le (by simp)] at hacc
        refine not_accepts_nil ?_ hacc
        rw [HttpChunkedDecoder.advance]
        simp only
        split <;> simp
      · rintro ⟨data, rest, body', heq, hlen, -⟩
        have := congrArg List.length heq
        simp only [List.length_cons, List.length_append, Nat.pred_eq_sub_one] at this hlt
        omega
    · have hmin : min d.chunkRemaining (tail.length + 1) = d.chunkRemaining := by
        rw [Nat.pred_eq_sub_one] at hge
        omega
      rw [hmin] at hswitch
      rw [accepts_emit hswitch hr hemit]
      have hstate : (d.advance d.chunkRemaining).state = .dataCr := by
        rw [HttpChunkedDecoder.advance, if_pos (Nat.sub_self _)]
      simp only [accepts_dataCr hstate]
      constructor
      · rintro ⟨body', rfl, rest, hrest, hacc⟩
        refine ⟨(ch :: tail).take d.chunkRemaining, rest, body', ?_, ?_, rfl, hacc⟩
        · rw [← hrest, List.take_append_drop]
        · rw [List.length_take, List.length_cons, hmin]
      · rintro ⟨data, rest, body', heq, hlen, rfl, hacc⟩
        rw [heq, ← hlen, List.take_left, List.drop_left]
        exact ⟨body', rfl, rest, rfl, by rwa [hlen]⟩

/-- A decoder that waits for the first digit of a chunk, with nothing of the trailer read. -/
structure HttpChunkedDecoder.AtChunk (d : HttpChunkedDecoder) : Prop where
  state : d.state = .size
  chunkSize : d.chunkSize = 0
  sizeLineLength : d.sizeLineLength = 0
  sawSizeDigit : d.sawSizeDigit = false
  trailerSize : d.trailerSize = 0

/-- The decoder behind a whole size line. -/
def HttpChunkedDecoder.afterLine (d : HttpChunkedDecoder) (size n : Nat) : HttpChunkedDecoder :=
  { d.sizeLine size n with chunkRemaining := size, state := if size = 0 then .trailerStart else .data }

theorem accepts_line (hd : d.AtChunk) :
    Accepts emit d sink input body ↔ ∃ digits ext rest size, input = digits ++ ext ++ cr :: lf :: rest ∧
      SizeLine size digits ext ∧ Accepts emit (d.afterLine size (digits ++ ext ++ [cr]).length) sink rest body := by
  rw [accepts_size hd.state]
  simp only [hd.chunkSize, hd.sizeLineLength, hd.sawSizeDigit, Bool.false_eq_true, false_or, Nat.zero_add]
  constructor
  · rintro ⟨digits, ext, rest, size, rfl, hnum, hext, hne, hfits, hlen, hacc⟩
    rw [accepts_sizeLf rfl] at hacc
    obtain ⟨rest', rfl, hacc⟩ := hacc
    exact ⟨digits, ext, rest', size, rfl, ⟨hne, hnum, hfits hne, hext, hlen⟩, hacc⟩
  · rintro ⟨digits, ext, rest, size, rfl, h, hacc⟩
    refine ⟨digits, ext, _, size, rfl, h.number, h.extension, h.digits_ne_nil, fun _ => h.fits, h.length_le, ?_⟩
    rw [accepts_sizeLf rfl]
    exact ⟨rest, rfl, hacc⟩

theorem chunked_iff : (∃ chunks, Chunked input chunks ∧ body = chunks.flatten) ↔
    ∃ digits ext rest size, input = digits ++ ext ++ cr :: lf :: rest ∧ SizeLine size digits ext ∧
      (size = 0 ∧ (Trailer rest ∧ rest.length ≤ httpChunkedMaxTrailerSize ∧ body = []) ∨
        size ≠ 0 ∧ ∃ data rest' body', rest = data ++ cr :: lf :: rest' ∧ data.length = size ∧
          body = data ++ body' ∧ ∃ chunks, Chunked rest' chunks ∧ body' = chunks.flatten) := by
  constructor
  · rintro ⟨chunks, h, rfl⟩
    cases h with
    | last hline htrailer hlen => exact ⟨_, _, _, 0, rfl, hline, .inl ⟨rfl, htrailer, hlen, rfl⟩⟩
    | chunk hline hdata hrest =>
      exact ⟨_, _, _, _, rfl, hline, .inr ⟨by simpa using hdata, _, _, _, rfl, rfl, rfl, _, hrest, rfl⟩⟩
  · rintro ⟨digits, ext, rest, size, rfl, hline, ⟨rfl, htrailer, hlen, rfl⟩ |
      ⟨hsize, data, rest', body', rfl, rfl, rfl, chunks, hrest, rfl⟩⟩
    · exact ⟨[], .last hline htrailer hlen, rfl⟩
    · exact ⟨data :: chunks, .chunk hline (by simpa using hsize) hrest, rfl⟩

theorem accepts_chunked (hemit : ∀ s run, (emit s run).2 = true) (hd : d.AtChunk) :
    Accepts emit d sink input body ↔ ∃ chunks, Chunked input chunks ∧ body = chunks.flatten := by
  induction hn : input.length using Nat.strong_induction_on generalizing d sink input body with
  | _ n ih =>
  rw [accepts_line hd, chunked_iff]
  refine exists_congr fun digits => exists_congr fun ext => exists_congr fun rest => exists_congr fun size =>
    and_congr_right fun hinput => and_congr_right fun _ => ?_
  rcases eq_or_ne size 0 with rfl | hsize
  · have hstate : (d.afterLine 0 (digits ++ ext ++ [cr]).length).state = .trailerStart := rfl
    rw [accepts_trailerStart hstate]
    simp [HttpChunkedDecoder.afterLine, HttpChunkedDecoder.sizeLine, hd.trailerSize]
  · have hstate : (d.afterLine size (digits ++ ext ++ [cr]).length).state = .data := if_neg hsize
    rw [accepts_data hstate hsize hemit, or_iff_right (fun h => hsize h.1), and_iff_right hsize]
    refine exists_congr fun data => exists_congr fun rest' => exists_congr fun body' =>
      and_congr_right fun hrest => and_congr_right fun _ => and_congr_right fun _ => ?_
    refine ih rest'.length ?_ ⟨rfl, rfl, rfl, rfl, hd.trailerSize⟩ rfl
    rw [← hn, hinput, hrest]
    simp only [List.length_append, List.length_cons]
    omega

end Accepts

/-- The decoder ends with `DONE` on the chunked messages and on no other string, and what it then has
emitted is the data of the chunks. -/
theorem httpChunkedDecoderFeed_done_iff {ω : Type} {emit : ω → List UInt8 → ω × Bool}
    (hemit : ∀ s run, (emit s run).2 = true) (sink : ω) (input : List UInt8) :
    let f := httpChunkedDecoderFeed emit httpChunkedDecoderInit sink input
    (f.result = .done ↔ ∃ chunks, Chunked input chunks) ∧
      ∀ chunks, Chunked input chunks → f.emitted.flatten = chunks.flatten := by
  rw [httpChunkedDecoderFeed_eq_feedLoop emit (by decide)]
  have h := fun body => @accepts_chunked ω emit httpChunkedDecoderInit sink input body hemit
    ⟨rfl, rfl, rfl, rfl, rfl⟩
  refine ⟨⟨fun hdone => ?_, ?_⟩, fun chunks hchunks => ?_⟩
  · obtain ⟨chunks, hchunks, -⟩ := (h _).1 ⟨hdone, rfl⟩
    exact ⟨chunks, hchunks⟩
  · rintro ⟨chunks, hchunks⟩
    exact ((h _).2 ⟨chunks, hchunks, rfl⟩).1
  · exact ((h _).2 ⟨chunks, hchunks, rfl⟩).2

theorem feedLoop_state_done {ω : Type} {emit : ω → List UInt8 → ω × Bool}
    (d : HttpChunkedDecoder) (sink : ω) (input : List UInt8) :
    (feedLoop emit d sink input).decoder.state = .done ↔ (feedLoop emit d sink input).result = .done := by
  induction d, sink, input using feedLoop.induct emit with
  | case1 d sink =>
    rw [feedLoop_nil]
    dsimp only
    split <;> simp [*]
  | case2 d sink ch rest d' h => simp [feedLoop_fail emit _ h, HttpChunkedDecoder.fail]
  | case3 d sink ch rest d' h ih =>
    rw [feedLoop_next emit _ h]
    exact ih
  | case4 d sink ch rest d' h hrest => simp [feedLoop_finish emit _ h, hrest, HttpChunkedDecoder.fail]
  | case5 d sink ch rest d' h hrest => simp [feedLoop_finish emit _ h, hrest, switchState_finish_done h]
  | case6 d sink ch rest d' h ih =>
    rw [feedLoop_emit_zero emit _ h]
    exact ih
  | case7 d sink ch rest n d' h hn run s' hfail =>
    have hrun : emit sink ((ch :: rest).take n) = (s', false) := hfail
    rw [feedLoop]
    split <;> simp_all [HttpChunkedDecoder.fail]
  | case8 d sink ch rest n d' h hn run s' hok ih =>
    have hrun : emit sink ((ch :: rest).take n) = (s', true) := hok
    rw [feedLoop_emit emit _ h hn (by rw [hrun]), hrun]
    exact ih

/-- A recording callback and a message of one chunk with an extension. -/
theorem httpChunkedDecoderFeed_done_iff_hello :
    let f := httpChunkedDecoderFeed (fun runs run => (runs ++ [run], true)) httpChunkedDecoderInit []
      "5;a\r\nhello\r\n0\r\n\r\n".toUTF8.toList
    (f.result = .done ↔ ∃ chunks, Chunked "5;a\r\nhello\r\n0\r\n\r\n".toUTF8.toList chunks) ∧
      ∀ chunks, Chunked "5;a\r\nhello\r\n0\r\n\r\n".toUTF8.toList chunks → f.emitted.flatten = chunks.flatten :=
  httpChunkedDecoderFeed_done_iff (fun _ _ => rfl) ..

end Rtp2httpd
