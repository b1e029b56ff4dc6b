import Mathlib.Data.List.Infix
import SchemaPackage.Proofs.Dictionary.Reading
import SchemaPackage.Proofs.Text.Entries

/-!
Data files as the loader cuts them. The loader knows how a record ends but nothing of quotes: it
cuts at every end of a record that it meets, be it one that was written there or one that a value
holds. Two occurrences never overlap, so records are never run together; a record is taken apart
exactly when one of its values holds the end of a record.
-/
namespace SchemaPackage

namespace Text

/-- Cuts a text at the occurrences of a mark, once the first `skip` characters, which belong to an
occurrence that is dealt with, are passed over. -/
def cutFrom (mark : Text) : Nat → Text → List Text
  | _, [] => [[]]
  | skip + 1, _ :: rest => cutFrom mark skip rest
  | 0, c :: rest =>
    if beginsWith mark (c :: rest) then [] :: cutFrom mark (mark.length - 1) rest
    else match cutFrom mark 0 rest with
      | [] => [[c]]
      | piece :: more => (c :: piece) :: more

/-- The pieces between the occurrences of a mark, from left to right. -/
def cut (mark t : Text) : List Text := cutFrom mark 0 t

/-- The character that a mark ends in stands nowhere else in it, so occurrences never overlap. -/
def IsMark (mark : Text) : Prop := ∃ front last, mark = front ++ [last] ∧ last ∉ front

variable {mark s t : Text}

theorem IsMark.ne_nil (hmark : IsMark mark) : mark ≠ [] := by
  obtain ⟨front, last, rfl, _⟩ := hmark
  simp

theorem beginsWith_iff : beginsWith mark t = true ↔ mark <+: t := after?_isSome_iff

theorem cutFrom_ne_nil (mark : Text) (skip : Nat) (t : Text) : cutFrom mark skip t ≠ [] := by
  induction t generalizing skip with
  | nil => simp [cutFrom]
  | cons c rest ih =>
    cases skip with
    | succ skip => exact ih skip
    | zero =>
      rw [cutFrom]
      split
      · simp
      · split <;> simp

theorem cutFrom_length_append (mark s t : Text) : cutFrom mark s.length (s ++ t) = cut mark t := by
  induction s with
  | nil => rfl
  | cons c rest ih => exact ih

/-- A mark in front is cut off. -/
theorem cut_mark_append (hmark : mark ≠ []) (t : Text) :
    cut mark (mark ++ t) = [] :: cut mark t := by
  obtain ⟨c, rest, rfl⟩ := List.exists_cons_of_ne_nil hmark
  have hfront : beginsWith (c :: rest) (c :: (rest ++ t)) = true :=
    beginsWith_iff.mpr (List.prefix_append (c :: rest) t)
  rw [List.cons_append, cut, cutFrom, if_pos hfront]
  exact congrArg (List.cons []) (cutFrom_length_append (c :: rest) rest t)

/-- An occurrence that begins before another one ends before it begins. -/
theorem prefix_append_mark_iff (hmark : IsMark mark) (hs : s ≠ []) :
    mark <+: s ++ (mark ++ t) ↔ mark <+: s := by
  refine ⟨fun h => ?_, fun h => h.trans (List.prefix_append s _)⟩
  rcases List.prefix_or_prefix_of_prefix h (List.prefix_append s _) with hfits | ⟨rest, hrest⟩
  · exact hfits
  · obtain ⟨front, last, hlast, hnotin⟩ := hmark
    cases List.eq_nil_or_concat' rest with
    | inl hnil =>
      rw [← hrest, hnil, List.append_nil]
    | inr hends =>
      -- What sticks out of `s` would be a beginning of the mark that holds its last character.
      exfalso
      obtain ⟨inner, last', rfl⟩ := hends
      have hlast' : last' = last := by
        rw [hlast, ← List.append_assoc] at hrest
        exact (List.append_inj' hrest rfl).2 |> List.singleton_inj.mp
      have hbegins : inner ++ [last'] <+: mark ++ t := by
        rw [← hrest, List.prefix_append_right_inj] at h
        rwa [hrest] at h
      have hlength : (inner ++ [last']).length ≤ front.length := by
        have hsizes := congrArg List.length hrest
        have hpositive := List.length_pos_of_ne_nil hs
        rw [hlast] at hsizes
        simp only [List.length_append, List.length_singleton] at hsizes ⊢
        omega
      have hinner : inner ++ [last'] <+: front := by
        refine List.prefix_of_prefix_length_le hbegins ?_ hlength
        rw [hlast, List.append_assoc]
        exact List.prefix_append front _
      exact hnotin (hlast' ▸ hinner.subset (List.mem_append_right inner List.mem_cons_self))

theorem cutFrom_append_mark (hmark : IsMark mark) (s t : Text) {skip : Nat}
    (hskip : skip ≤ s.length) :
    cutFrom mark skip (s ++ (mark ++ t)) = cutFrom mark skip s ++ cut mark t := by
  induction s generalizing skip with
  | nil =>
    obtain rfl : skip = 0 := by simpa using hskip
    exact cut_mark_append hmark.ne_nil t
  | cons c rest ih =>
    cases skip with
    | succ skip => exact ih (by simpa using hskip)
    | zero =>
      have hfront : beginsWith mark (c :: (rest ++ (mark ++ t))) = beginsWith mark (c :: rest) := by
        rw [Bool.eq_iff_iff, beginsWith_iff, beginsWith_iff]
        exact prefix_append_mark_iff hmark (List.cons_ne_nil c rest)
      rw [List.cons_append, cutFrom, cutFrom, hfront]
      split
      next hbegins =>
        have hlength := (beginsWith_iff.mp hbegins).length_le
        rw [ih (by simp only [List.length_cons] at hlength; omega), List.cons_append]
      next =>
        rw [ih (Nat.zero_le _)]
        obtain ⟨piece, more, hpieces⟩ := List.exists_cons_of_ne_nil (cutFrom_ne_nil mark 0 rest)
        simp only [hpieces, List.cons_append]

/-- Where the mark stands, the text falls apart. -/
theorem cut_append_mark (hmark : IsMark mark) (s t : Text) :
    cut mark (s ++ mark ++ t) = cut mark s ++ cut mark t := by
  rw [List.append_assoc]
  exact cutFrom_append_mark hmark s t (Nat.zero_le _)

theorem cut_eq_singleton (h : ¬ mark <:+: t) : cut mark t = [t] := by
  induction t with
  | nil => rfl
  | cons c rest ih =>
    rw [List.infix_cons_iff, not_or] at h
    have hrest : cutFrom mark 0 rest = [rest] := ih h.2
    rw [cut, cutFrom, if_neg (mt beginsWith_iff.mp h.1), hrest]

theorem length_cut_pos (mark t : Text) : 0 < (cut mark t).length :=
  List.length_pos_of_ne_nil (cutFrom_ne_nil mark 0 t)

theorem length_cut_eq_one_iff (hmark : IsMark mark) : (cut mark t).length = 1 ↔ ¬ mark <:+: t := by
  constructor
  · rintro h ⟨s, u, rfl⟩
    have hs := length_cut_pos mark s
    have hu := length_cut_pos mark u
    rw [cut_append_mark hmark, List.length_append] at h
    omega
  · intro h
    rw [cut_eq_singleton h, List.length_singleton]

/-- Texts that each end in the mark are cut one by one. -/
theorem cut_flatMap (hmark : IsMark mark) (bodies : List Text) :
    cut mark (bodies.flatMap (· ++ mark)) = bodies.flatMap (cut mark) ++ [[]] := by
  induction bodies with
  | nil => rfl
  | cons body rest ih =>
    rw [List.flatMap_cons, cut_append_mark hmark, ih, List.flatMap_cons, List.append_assoc]

theorem flatMap_cut_eq_iff (hmark : IsMark mark) (bodies : List Text) :
    bodies.flatMap (cut mark) = bodies ↔ ∀ body ∈ bodies, ¬ mark <:+: body := by
  constructor
  · intro h
    have hall (l : List Text) : l.length ≤ (l.flatMap (cut mark)).length ∧
        ((l.flatMap (cut mark)).length = l.length → ∀ body ∈ l, ¬ mark <:+: body) := by
      induction l with
      | nil => simp
      | cons body rest ih =>
        have hbody := length_cut_pos mark body
        rw [List.flatMap_cons, List.length_append, List.length_cons]
        refine ⟨by omega, fun hlength other hother => ?_⟩
        rcases List.mem_cons.mp hother with rfl | hother
        · exact (length_cut_eq_one_iff hmark).mp (by omega)
        · exact ih.2 (by omega) other hother
    exact (hall bodies).2 (congrArg List.length h)
  · intro h
    induction bodies with
    | nil => rfl
    | cons body rest ih =>
      rw [List.flatMap_cons, cut_eq_singleton (h body List.mem_cons_self),
        ih fun other hother => h other (List.mem_cons_of_mem body hother), List.singleton_append]

end Text

open Text

/-- Doubling quotes tears nothing apart that has no quotes. -/
theorem prefix_escapeValue_iff {part : Text} (hpart : '"' ∉ part) (value : Text) :
    part <+: escapeValue value ↔ part <+: value := by
  induction value generalizing part with
  | nil => rfl
  | cons c rest ih =>
    cases part with
    | nil => simp
    | cons p part =>
      rw [List.mem_cons, not_or] at hpart
      by_cases hc : c = '"'
      · simp [escapeValue, hc, Ne.symm hpart.1]
      · simp [escapeValue, hc, ih hpart.2]

theorem infix_escapeValue_iff {part : Text} (hpart : '"' ∉ part) (value : Text) :
    part <:+: escapeValue value ↔ part <:+: value := by
  induction value with
  | nil => rfl
  | cons c rest ih =>
    have hfront := prefix_escapeValue_iff hpart (c :: rest)
    by_cases hc : c = '"'
    · have hquotes : escapeValue (c :: rest) = [c, c] ++ escapeValue rest := by
        simp [escapeValue, hc]
      have hquote : c ∉ part := by rwa [hc]
      rw [hquotes, infix_append_iff_of_disjoint (by simpa using hquote), ih,
        ← infix_append_iff_of_disjoint (s := [c]) (by simpa using hquote), List.singleton_append]
    · have hkept : escapeValue (c :: rest) = c :: escapeValue rest := by
        simp [escapeValue, hc]
      rw [hkept] at hfront ⊢
      rw [List.infix_cons_iff, hfront, ih, List.infix_cons_iff]

/-- What stands in a record before its end. -/
def recordBody (values : List Text) : Text :=
  Text.joined "," (values.map fun value => quoteValue (escapeValue value))

theorem isMark_recordEnd : IsMark recordEnd := ⟨"#$EOR$#\r", '\n', by decide, by decide⟩

/-- The end of a record stands in its body only within a value: it has neither quotes nor commas. -/
theorem infix_recordBody_iff (values : List Text) :
    recordEnd <:+: recordBody values ↔ ∃ value ∈ values, recordEnd <:+: value := by
  cases values with
  | nil =>
    have hempty : ¬ recordEnd <:+: [] := by decide
    simpa [recordBody, Text.joined] using hempty
  | cons first rest =>
    have hcomma : ',' ∉ recordEnd := by decide
    have hquote : ∀ c ∈ ("\"" : Text), c ∉ recordEnd := by
      intro c hc
      obtain rfl : c = '"' := List.mem_singleton.mp hc
      decide
    have hvalue (value : Text) :
        recordEnd <:+: quoteValue (escapeValue value) ↔ recordEnd <:+: value := by
      rw [quoteValue, infix_append_iff_of_disjoint_right hquote,
        infix_append_iff_of_disjoint hquote, infix_escapeValue_iff (by decide)]
    have hquoted : (first :: rest).map (fun value => quoteValue (escapeValue value)) ≠ [] :=
      List.cons_ne_nil _ _
    refine (infix_joined_iff hcomma hquoted).trans ?_
    simp only [List.mem_map, exists_exists_and_eq_and, hvalue]

namespace Encoder

/-- The records of a registered table on end, cut at every end of a record. The pieces are those
of one record after another, and what is left behind the last is empty. They are the records
without their ends exactly when no value that a record shows, given or default, holds the end of a
record. -/
theorem cut_records (order : ColumnOrder) (calls : List Call) {k : Dictionary} {t : Table}
    (ht : (run { order } calls).table? k = some t) (all : List Attributes) :
    ∃ bodies : List Text,
      all.mapM ((run { order } calls).render k) = .ok (bodies.map (· ++ recordEnd)) ∧
      bodies.length = all.length ∧
      cut recordEnd (bodies.map (· ++ recordEnd)).flatten =
        bodies.flatMap (cut recordEnd) ++ [[]] ∧
      (cut recordEnd (bodies.map (· ++ recordEnd)).flatten = bodies ++ [[]] ↔
        ∀ fields ∈ all, ∀ c ∈ t.sortedColumns,
          ¬ recordEnd <:+: valueIn (order.columns t) fields (Text.lower c.name)) := by
  have hvalid : (run { order } calls).Valid := (valid_empty order).run calls
  have hrender : (run { order } calls).render k = fun fields =>
      pure (recordOf ((Layout.ofTable t).fields.map (valueIn (order.columns t) fields))) := by
    funext fields
    rw [render_eq_ok hvalid ht fields, order_run]
    rfl
  refine ⟨all.map fun fields =>
      recordBody ((Layout.ofTable t).fields.map (valueIn (order.columns t) fields)),
    ?_, List.length_map _, ?_, ?_⟩
  · rw [hrender, List.mapM_pure, List.map_map]
    rfl
  · rw [← List.flatMap_def]
    exact cut_flatMap isMark_recordEnd _
  · rw [← List.flatMap_def, cut_flatMap isMark_recordEnd, List.append_left_inj,
      flatMap_cut_eq_iff isMark_recordEnd]
    simp only [List.forall_mem_map, infix_recordBody_iff, not_exists, not_and, Layout.ofTable]

/-- A value with quotes, commas and a part of the end of a record is no trouble. -/
theorem cut_records_of_nearMiss :
    (run {} [.register .objects quotedDefaultTable]).table? .objects = some quotedDefaultTable ∧
      ∃ bodies : List Text,
        ([[("table_name", "a\",\"#$EOR$#")], [("table_name", "\r\n")]] : List Attributes).mapM
            ((run {} [.register .objects quotedDefaultTable]).render .objects) =
          .ok (bodies.map (· ++ recordEnd)) ∧
        cut recordEnd (bodies.map (· ++ recordEnd)).flatten = bodies ++ [[]] := by
  have hregistered : (run {} [.register .objects quotedDefaultTable]).table? .objects =
      some quotedDefaultTable := rfl
  obtain ⟨bodies, hbodies, _, _, hcut⟩ := cut_records .creation _ hregistered
    [[("table_name", "a\",\"#$EOR$#")], [("table_name", "\r\n")]]
  exact ⟨hregistered, bodies, hbodies, hcut.mpr (by decide)⟩

/-- One record is taken for two if a value holds the end of a record. -/
theorem cut_record_apart :
    ∃ body : Text, (run {} [.register .objects quotedDefaultTable]).objectRecord
        [("table_name", "A#$EOR$#\r\nB")] = .ok (body ++ recordEnd) ∧
      cut recordEnd (body ++ recordEnd) = ["\"A", "B\",\"N\"", ""] ∧
      cut recordEnd (body ++ recordEnd) ≠ [body, []] :=
  ⟨"\"A#$EOR$#\r\nB\",\"N\"", by decide, by decide, by decide⟩

end Encoder

end SchemaPackage
