import RowScope.Proofs.Column.Conversion
import RowScope.Proofs.Number.Numerals
import RowScope.Proofs.Text.Boundary

/-!
# Text and Bytes of a Cell

A cell is read as text and as bytes in several ways, which agree. Whatever is
delivered and is not NULL has bytes, and its text is what these bytes decode to.
Texts come from such bytes, and blobs are such bytes. Only numbers are the other
way around: they are written as text, which is ASCII, and their bytes are the
bytes of that text.

So whoever reads the text and encodes it gets the bytes, whoever counts bytes
counts these, and whoever stops at the first NUL may look for it in the text or
in the bytes.

## Main definitions

* `Cell.IsNumber`: The cells that are written as numbers.
* `garbled`: Bytes that are hardly UTF-8.

## Theorems

* `number_written`: Numbers are written in ASCII.
* `delivered_written`: What is delivered has bytes, and its text is what they
  decode to.
* `codec_roundTrip`: Nothing is lost between bytes and text.
* `text_bytes_agree`: The readings of a column as text and as bytes agree.
-/

namespace RowScope

namespace Cell

/-- The cells that are written as numbers. -/
def IsNumber : Cell → Prop
  | integer _ => True
  | real _ => True
  | _ => False

theorem encoded_eq_ok {t : Text} {bytes : Bytes} (h : Text.encode t = some bytes) :
    encoded t = .ok bytes := by
  rw [encoded, h]

/-- The codec refuses a text exactly if it has no encoding, there being one way
    only to be refused. -/
theorem encoded_eq_error_iff (t : Text) :
    encoded t = .error .notEncodable ↔ Text.encode t = none := by
  rcases h : Text.encode t with _ | bytes
  · rw [encoded, h]
    exact ⟨fun _ => rfl, fun _ => rfl⟩
  · rw [encoded_eq_ok h]
    refine ⟨fun herror => ?_, fun hnone => ?_⟩
    · cases herror
    · cases hnone

/-- A number is written in ASCII, one byte for each code point, so the text is
    read from the bytes whichever codec has written them. -/
theorem number_written (c : Cell) (hc : c.IsDelivered) (hnumber : c.IsNumber) :
    ∃ text bytes, c.text? = .ok (some text) ∧ c.bytes? = .ok (some bytes) ∧
      Text.decode bytes = text ∧ text.IsAscii ∧ bytes.map UInt8.toNat = text.map Fin.val := by
  cases hc with
  | integer n lower upper =>
      have hascii := Text.ofInt_isAscii n
      rcases Text.decode_encode_ascii _ hascii with ⟨bytes, hencode, hdecode, hsame⟩
      have htext := integerText_of_bounds n lower upper
      refine ⟨Text.ofInt n, bytes, ?_, ?_, hdecode, hascii, hsame⟩
      · rw [text?, htext]
        rfl
      · rw [bytes?, htext]
        show (do let written ← encoded (Text.ofInt n); return some written) = _
        rw [encoded_eq_ok hencode]
        rfl
  -- A real goes the same way, but its text needs no check of its length.
  | real x =>
      have hascii := x.text_isAscii
      rcases Text.decode_encode_ascii _ hascii with ⟨bytes, hencode, hdecode, hsame⟩
      refine ⟨x.text, bytes, rfl, ?_, hdecode, hascii, hsame⟩
      rw [bytes?, encoded_eq_ok hencode]
      rfl
  | null => exact False.elim hnumber
  | text bytes => exact False.elim hnumber
  | blob bytes => exact False.elim hnumber

/-- What is delivered and is not NULL has bytes, and its text is what they
    decode to. For texts and blobs the bytes come first and the text is decoded
    from them; for numbers the text comes first and is written down, which makes
    no difference as it is ASCII. -/
theorem delivered_written (c : Cell) (hc : c.IsDelivered) (hnull : c ≠ .null) :
    ∃ bytes, c.bytes? = .ok (some bytes) ∧ c.text? = .ok (some (Text.decode bytes)) := by
  have number : c.IsNumber →
      ∃ bytes, c.bytes? = .ok (some bytes) ∧ c.text? = .ok (some (Text.decode bytes)) := by
    intro hnumber
    rcases c.number_written hc hnumber with ⟨text, bytes, htext, hbytes, hdecode, -, -⟩
    rw [← hdecode] at htext
    exact ⟨bytes, hbytes, htext⟩
  cases hc with
  | null => exact absurd rfl hnull
  | integer n lower upper => exact number trivial
  | real x => exact number trivial
  | text bytes =>
      refine ⟨bytes, ?_, rfl⟩
      rw [bytes?, encoded_eq_ok (Text.encode_decode bytes)]
      rfl
  | blob bytes => exact ⟨bytes, rfl, rfl⟩

end Cell

namespace Column

/-- What a column answers to the readings of its bytes. All three of them put
    something in place of NULL, each its own. -/
theorem get_bytes (column : Column) (c : Cell) (hcell : column.cell = .ok c)
    (bytes : Option Bytes) (hbytes : c.bytes? = .ok bytes) :
    column.get .content = .ok (.bytes (bytes.getD [])) ∧
      column.get .byteCount = .ok (.integer (bytes.getD []).length) ∧
      column.get .window = .ok (Value.ofOption .window bytes) := by
  simp only [get, read_of_cell column c hcell, Cell.content, Cell.byteCount, hbytes]
  exact ⟨rfl, rfl, rfl⟩

/-- What a column answers to the readings of its text: all of it, or as far as
    the first NUL. -/
theorem get_text (column : Column) (c : Cell) (hcell : column.cell = .ok c)
    (text : Option Text) (htext : c.text? = .ok text) :
    column.get .fullText = .ok (.text (text.getD [])) ∧
      column.get .text = .ok (.text ((text.map Text.beforeNul).getD [])) ∧
      ∀ default, column.textOr default = .ok ((text.map Text.beforeNul).getD default) := by
  simp only [get, textOr, read_of_cell column c hcell, Cell.fullText, Cell.textOr, htext]
  exact ⟨rfl, rfl, fun default => rfl⟩

end Column

/-- Nothing is lost between bytes and text. Bytes come back, through the codec
    and through a column; a text without surrogates comes back; and what is
    refused is a text with a surrogate that stands for no byte.

    The first law holds of all bytes and the second of some texts only. A text
    can have surrogates that stand for bytes which together are a character, and
    then the bytes decode to that character and not to the text. -/
theorem codec_roundTrip :
    (∀ bytes, Cell.encoded (Text.decode bytes) = .ok bytes) ∧
      (∀ bytes (column : Column), column.cell = .ok (.text (Text.decode bytes)) →
        column.get .content = .ok (.bytes bytes) ∧
          column.get .byteCount = .ok (.integer bytes.length)) ∧
      (∀ t : Text, (∀ c ∈ t, c.isSurrogate = false) →
        ∃ bytes, Cell.encoded t = .ok bytes ∧ Text.decode bytes = t) ∧
      ∀ t : Text, Cell.encoded t = .error .notEncodable ↔
        ∃ c ∈ t, c.isSurrogate = true ∧ ¬ (0xDC80 ≤ c.val ∧ c.val ≤ 0xDCFF) := by
  refine ⟨fun bytes => ?_, fun bytes column hcell => ?_, fun t ht => ?_, fun t => ?_⟩
  · exact Cell.encoded_eq_ok (Text.encode_decode bytes)
  · have hbytes : (Cell.text (Text.decode bytes)).bytes? = .ok (some bytes) := by
      rw [Cell.bytes?, Cell.encoded_eq_ok (Text.encode_decode bytes)]
      rfl
    rcases column.get_bytes _ hcell (some bytes) hbytes with ⟨hcontent, hcount, -⟩
    exact ⟨hcontent, hcount⟩
  · rcases Text.decode_encode t ht with ⟨bytes, hencode, hdecode⟩
    exact ⟨bytes, Cell.encoded_eq_ok hencode, hdecode⟩
  · rw [Cell.encoded_eq_error_iff, Text.encode_eq_none_iff]
    simp only [← Text.isStray_iff, Bool.not_eq_true]

/-- Bytes that are hardly UTF-8: a lead byte without its continuation, a
    surrogate, a point beyond the last one, a NUL, a character of three bytes,
    and a lead byte at the end. -/
def garbled : Bytes :=
  [0x61, 0xC3, 0x28, 0xED, 0xA0, 0x80, 0xF4, 0x90, 0x80, 0x80, 0x00, 0xE2, 0x82, 0xAC, 0xF0]

/-- Garbled bytes are read as they are, a character comes back, and a lone
    surrogate is refused. -/
theorem codec_roundTrip_garbled :
    ((Cell.text (Text.decode garbled)).alone 0 0).get .content = .ok (.bytes garbled) ∧
      (∃ bytes, Cell.encoded [0x20AC] = .ok bytes ∧ Text.decode bytes = [0x20AC]) ∧
      Cell.encoded [0xD800] = .error .notEncodable := by
  rcases codec_roundTrip with ⟨-, hcolumn, htext, hrefused⟩
  refine ⟨(hcolumn garbled _ rfl).1, htext [0x20AC] ?_, (hrefused [0xD800]).mpr ?_⟩
  · intro c hc
    rw [List.mem_singleton.mp hc]
    decide
  · exact ⟨0xD800, List.mem_cons_self, by decide, by decide⟩

/-- The readings of a column as text and as bytes agree. The text is that of the
    bytes, the bytes are those of the text, and they are as many as counted.
    Unless the cell is NULL, a window shows the same bytes, and the text as far
    as the first NUL is the text of the bytes as far as it.

    The last part is not obvious, because the text is cut after decoding and the
    bytes before it. A NUL ends whatever sequence it interrupts, so no code
    point is decoded across the cut. -/
theorem text_bytes_agree (column : Column) (c : Cell) (hcell : column.cell = .ok c)
    (hc : c.IsDelivered) :
    ∃ text bytes,
      column.get .fullText = .ok (.text text) ∧ column.convert .text = .ok (.text text) ∧
      Cell.encoded text = .ok bytes ∧
      column.get .content = .ok (.bytes bytes) ∧ column.convert .bytes = .ok (.bytes bytes) ∧
      column.get .byteCount = .ok (.integer bytes.length) ∧
      (c ≠ .null →
        column.get .window = .ok (.window bytes) ∧
        column.get .text = .ok (.text (Text.decode (bytes.takeWhile fun b => b.toNat != 0))) ∧
        ∀ default, column.textOr default =
          .ok (Text.decode (bytes.takeWhile fun b => b.toNat != 0))) := by
  have htextGetter := Column.convert_eq_getter column .text .fullText rfl
  have hbytesGetter := Column.convert_eq_getter column .bytes .content rfl
  by_cases hnull : c = .null
  · -- NULL has neither text nor bytes, and is read as nothing in both ways.
    subst hnull
    rcases column.get_text _ hcell none rfl with ⟨hfull, -, -⟩
    rcases column.get_bytes _ hcell none rfl with ⟨hcontent, hcount, -⟩
    exact ⟨[], [], hfull, htextGetter.trans hfull, rfl, hcontent, hbytesGetter.trans hcontent,
      hcount, fun hnot => absurd rfl hnot⟩
  · -- Everything else has bytes, and both kinds of readings are of the same
    -- ones.
    rcases c.delivered_written hc hnull with ⟨bytes, hbytes, htext⟩
    rcases column.get_text c hcell _ htext with ⟨hfull, hcut, hor⟩
    rcases column.get_bytes c hcell _ hbytes with ⟨hcontent, hcount, hwindow⟩
    have hnul := Text.beforeNul_decode bytes
    refine ⟨Text.decode bytes, bytes, hfull, htextGetter.trans hfull,
      Cell.encoded_eq_ok (Text.encode_decode bytes), hcontent, hbytesGetter.trans hcontent, hcount,
      fun _ => ⟨hwindow, ?_, fun default => ?_⟩⟩
    · rw [hcut, Option.map_some, Option.getD_some, hnul]
    · rw [hor default, Option.map_some, Option.getD_some, hnul]

/-- The readings of garbled bytes agree, and stop at the NUL. -/
theorem text_bytes_agree_garbled :
    ((Cell.blob garbled).alone 0 0).textOr [] = .ok (Text.decode (garbled.take 10)) := by
  rcases text_bytes_agree ((Cell.blob garbled).alone 0 0) (.blob garbled) rfl (.blob garbled) with
    ⟨text, bytes, -, -, -, hcontent, -, -, hrest⟩
  have hbytes : garbled = bytes := by
    have hread : ((Cell.blob garbled).alone 0 0).get .content = .ok (.bytes garbled) := rfl
    rw [hread, Except.ok.injEq, Value.bytes.injEq] at hcontent
    exact hcontent
  rcases hrest (fun h => nomatch h) with ⟨-, -, hor⟩
  rw [hor [], ← hbytes]
  rfl

end RowScope
