import Observatory.Proofs.Record.Tokens
import Observatory.Value.Basic
/-!
# Values on the wire

The text of a value is one line, whatever the value holds.
-/

namespace Observatory

open Text (OneLine oneLine_nil oneLine_append oneLine_append_space oneLine_encode
  oneLine_encodeIfNeeded numeral_intText numeral_wireDouble numeral_wireSingle)

/-! ## One line -/

theorem Scalar.oneLine_boolText (v : Bool) : OneLine (boolText v) := by
  cases v <;> decide

theorem Scalar.oneLine (s : Scalar) : OneLine s.encode := by
  cases s with
  | string text => exact oneLine_encode _
  | integer v => exact (numeral_intText _).oneLine
  | time v => exact (numeral_wireDouble _).oneLine
  | double v => exact (numeral_wireDouble _).oneLine
  | float v => exact (numeral_wireSingle _).oneLine
  | bool v => exact oneLine_boolText v
  | long v => exact (numeral_intText _).oneLine
  | radec a b =>
    exact oneLine_append_space.2 ⟨(numeral_wireDouble _).oneLine, (numeral_wireDouble _).oneLine⟩
  | altaz a b =>
    exact oneLine_append_space.2 ⟨(numeral_wireDouble _).oneLine, (numeral_wireDouble _).oneLine⟩

theorem Selection.oneLine (s : Selection) : OneLine s.encode := by
  unfold Selection.encode
  split
  · exact oneLine_encodeIfNeeded _
  · exact (numeral_intText _).oneLine

theorem Bounded.oneLine (b : Bounded) : OneLine b.encode := by
  unfold Bounded.encode
  rw [oneLine_append_space, oneLine_append_space]
  exact ⟨(numeral_wireDouble _).oneLine, (numeral_wireDouble _).oneLine,
    (numeral_wireDouble _).oneLine⟩

theorem Rectangle.oneLine (r : Rectangle) : OneLine r.encode := by
  unfold Rectangle.encode Rectangle.join
  rw [oneLine_append_space, oneLine_append_space, oneLine_append_space]
  exact ⟨Scalar.oneLine _, Scalar.oneLine _, Scalar.oneLine _, Scalar.oneLine _⟩

theorem Series.encode_cons (base : Base) (item : Scalar) (items : List Scalar) :
    Series.encode ⟨base, item :: items⟩ =
      item.encode ++ items.flatMap fun i => ' ' :: i.encode := by
  unfold Series.encode Series.join
  induction items generalizing item with
  | nil => simp
  | cons i is ih =>
    have hcons : [' '].intercalate (List.map Scalar.encode (item :: i :: is)) =
        item.encode ++ ' ' :: [' '].intercalate (List.map Scalar.encode (i :: is)) := by
      simp [List.intercalate]
    rw [hcons, ih]
    simp

theorem Series.oneLine (s : Series) : OneLine s.encode := by
  obtain ⟨base, items⟩ := s
  cases items with
  | nil => exact oneLine_nil
  | cons item items =>
    rw [encode_cons, oneLine_append]
    refine ⟨item.oneLine, Text.oneLine_flatMap fun i _ => ?_⟩
    exact Text.oneLine_cons.2 ⟨by decide, i.oneLine⟩

theorem Contents.oneLine (c : Contents) : OneLine c.encode := by
  cases c with
  | scalar cell => exact cell.oneLine
  | selection s => exact s.oneLine
  | bounded b => exact b.oneLine
  | rectangle r => exact r.oneLine
  | series s => exact s.oneLine

theorem Value.oneLine_text (v : Value) : OneLine v.text.toList := by
  rw [text, String.toList_ofList]
  exact v.contents.oneLine

end Observatory
