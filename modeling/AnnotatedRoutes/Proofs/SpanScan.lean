import AnnotatedRoutes.Proofs.SpanOpening
import AnnotatedRoutes.Source.ClassScan

namespace AnnotatedRoutes.Source

namespace Span

theorem covers_iff {s : Span} {i : Nat} : s.covers i = true ↔ s.start ≤ i ∧ i < s.stop := by
  simp [covers]

/-- The span as it stands behind a text of the given length. -/
def shift (length : Nat) (s : Span) : Span :=
  { s with start := s.start + length, stop := s.stop + length }

@[simp] theorem shift_kind (n : Nat) (s : Span) : (s.shift n).kind = s.kind := rfl

@[simp] theorem shift_start (n : Nat) (s : Span) : (s.shift n).start = s.start + n := rfl

@[simp] theorem shift_stop (n : Nat) (s : Span) : (s.shift n).stop = s.stop + n := rfl

theorem map_shift_zero (spans : List Span) : spans.map (shift 0) = spans :=
  List.map_id spans

theorem map_shift_shift (m n : Nat) (spans : List Span) :
    (spans.map (shift m)).map (shift n) = spans.map (shift (m + n)) := by
  rw [List.map_map]
  refine List.map_congr_left fun s _ => ?_
  simp [shift, Nat.add_assoc]

theorem scanFrom_add (n offset skip : Nat) (t : Text) :
    scanFrom (offset + n) skip t = (scanFrom offset skip t).map (shift n) := by
  induction t generalizing offset skip with
  | nil => simp [scanFrom]
  | cons c t ih =>
    have ho : offset + n + 1 = offset + 1 + n := by omega
    cases skip with
    | succ skip => simp only [scanFrom, ho, ih]
    | zero =>
      simp only [scanFrom, ho, ih]
      cases first? (c :: t) with
      | none => rfl
      | some found => simp [shift, Nat.add_right_comm]

theorem scanFrom_skip (offset skip : Nat) (t : Text) :
    scanFrom offset skip t = scanFrom (offset + skip) 0 (t.drop skip) := by
  induction t generalizing offset skip with
  | nil => simp [scanFrom]
  | cons c t ih =>
    cases skip with
    | zero => simp
    | succ skip =>
      rw [scanFrom, ih, List.drop_succ_cons]
      congr 1
      omega

theorem scanFrom_eq (offset skip : Nat) (t : Text) :
    scanFrom offset skip t = (scan (t.drop skip)).map (shift (offset + skip)) := by
  rw [scanFrom_skip, scan, ← scanFrom_add, Nat.zero_add]

theorem scan_nil : scan [] = [] := rfl

theorem scan_cons_of_none {c : Char} {t : Text} (h : first? (c :: t) = none) :
    scan (c :: t) = (scan t).map (shift 1) := by
  rw [scan, scanFrom, h]
  exact scanFrom_eq 1 0 t

theorem scan_of_opens {t : Text} {kind : SpanKind} {n : Nat} (h : Opens t kind n) :
    scan t = ⟨kind, 0, n⟩ :: (scan (t.drop n)).map (shift n) := by
  have hb := h.length_le
  cases t with
  | nil => simp at hb; omega
  | cons c t =>
    obtain ⟨m, rfl⟩ : ∃ m, n = m + 1 := ⟨n - 1, by omega⟩
    rw [scan, scanFrom, first?_eq_some_iff.mpr h]
    simp only [scanFrom_eq, Nat.zero_add, Nat.add_sub_cancel, List.drop_succ_cons, Nat.add_comm 1 m]

/-- A scan goes on behind a character at which no span opens, and behind a span. -/
theorem scan_induction {motive : Text → Prop} (nil : motive [])
    (code : ∀ c t, first? (c :: t) = none → motive t → motive (c :: t))
    (span : ∀ t kind n, Opens t kind n → motive (t.drop n) → motive t) (t : Text) : motive t := by
  induction hlen : t.length using Nat.strong_induction_on generalizing t with
  | _ len ih =>
    cases t with
    | nil => exact nil
    | cons c t =>
      cases hf : first? (c :: t) with
      | none => exact code c t hf (ih t.length (by simp at hlen; omega) t rfl)
      | some found =>
        have ho := first?_eq_some_iff.mp hf
        have hb := ho.length_le
        refine span _ _ _ ho (ih _ ?_ _ rfl)
        simp only [List.length_drop]
        omega

/-- What a scan finds: each span opens where it starts and ends inside the text. -/
theorem of_mem_scan {t : Text} {s : Span} (h : s ∈ scan t) :
    s.start < s.stop ∧ s.stop ≤ t.length ∧ Opens (t.drop s.start) s.kind (s.stop - s.start) := by
  induction t using scan_induction generalizing s with
  | nil => simp [scan_nil] at h
  | code c t hf ih =>
    rw [scan_cons_of_none hf] at h
    obtain ⟨r, hr, rfl⟩ := List.mem_map.mp h
    obtain ⟨hlt, hle, ho⟩ := ih hr
    refine ⟨by simpa using hlt, by simpa using hle, ?_⟩
    simpa using ho
  | span t kind n ho ih =>
    have hb := ho.length_le
    rw [scan_of_opens ho] at h
    rcases List.mem_cons.mp h with rfl | h
    · exact ⟨hb.1, hb.2, by simpa using ho⟩
    · obtain ⟨r, hr, rfl⟩ := List.mem_map.mp h
      obtain ⟨hlt, hle, hr⟩ := ih hr
      rw [List.length_drop] at hle
      refine ⟨by simpa using hlt, by simp only [shift_stop]; omega, ?_⟩
      rw [List.drop_drop] at hr
      have hd : r.stop + n - (r.start + n) = r.stop - r.start := by omega
      simpa only [shift_start, shift_stop, shift_kind, hd, Nat.add_comm n r.start] using hr

/-- Spans stand in order and do not overlap. -/
theorem pairwise_scan (t : Text) : (scan t).Pairwise (fun r s => r.stop ≤ s.start) := by
  induction t using scan_induction with
  | nil => simp [scan_nil]
  | code c t hf ih =>
    rw [scan_cons_of_none hf, List.pairwise_map]
    exact ih.imp (by simp)
  | span t kind n ho ih =>
    rw [scan_of_opens ho, List.pairwise_cons, List.pairwise_map]
    refine ⟨?_, ih.imp (by simp)⟩
    intro s hs
    obtain ⟨r, _, rfl⟩ := List.mem_map.mp hs
    exact Nat.le_add_left n r.start

/-- A text that goes on with neither a word nor the bracket of an attribute. -/
structure Separates (v : Text) : Prop where
  noBracket : v.head? ≠ some '['
  noWord : Stops Text.isWordChar v

theorem Separates.first?_eq_none {u v : Text} (hv : Separates v) (h : first? (u ++ v) = none) :
    first? u = none := by
  by_contra hne
  obtain ⟨⟨kind, n⟩, hs⟩ := Option.ne_none_iff_exists'.mp hne
  obtain ⟨kind', n', ho⟩ := (first?_eq_some_iff.mp hs).append hv.noBracket
  exact absurd (h.symm.trans (first?_eq_some_iff.mpr ho)) (by simp)

theorem scan_append {u v : Text} (hv : Separates v)
    (h : ∀ s ∈ scan (u ++ v), s.start < u.length → s.stop ≤ u.length) :
    scan (u ++ v) = scan u ++ (scan v).map (shift u.length) := by
  -- by length, since a span takes many characters at once
  induction hlen : u.length using Nat.strong_induction_on generalizing u with
  | _ len ih =>
    cases u with
    | nil => simp [scan_nil, ← hlen, map_shift_zero]
    | cons c u =>
      simp only [List.length_cons] at hlen h
      cases hf : first? (c :: u ++ v) with
      | none =>
        have hs : scan (c :: u ++ v) = (scan (u ++ v)).map (shift 1) := scan_cons_of_none hf
        have hu : ∀ s ∈ scan (u ++ v), s.start < u.length → s.stop ≤ u.length := by
          intro s hm hlt
          have := h (s.shift 1) (hs ▸ List.mem_map_of_mem hm) (by simp only [shift_start]; omega)
          simpa using this
        rw [hs, ih u.length (by omega) hu rfl, scan_cons_of_none (hv.first?_eq_none hf),
          List.map_append, map_shift_shift, hlen]
      | some found =>
        obtain ⟨kind, n⟩ := found
        have ho := first?_eq_some_iff.mp hf
        have hs := scan_of_opens ho
        have hpos := ho.length_le.1
        have hn : n ≤ (c :: u).length := h ⟨kind, 0, n⟩ (hs ▸ List.mem_cons_self) (by simp)
        have hd : (c :: u ++ v).drop n = (c :: u).drop n ++ v := List.drop_append_of_le_length hn
        have hu : ∀ s ∈ scan ((c :: u).drop n ++ v), s.start < ((c :: u).drop n).length →
            s.stop ≤ ((c :: u).drop n).length := by
          intro s hm hlt
          rw [List.length_drop, List.length_cons] at hlt ⊢
          have hmem : s.shift n ∈ scan (c :: u ++ v) := by
            rw [hs, hd]
            exact List.mem_cons_of_mem _ (List.mem_map_of_mem hm)
          have := h _ hmem (by simp only [shift_start]; omega)
          simp only [shift_stop] at this
          omega
        rw [hs, hd, ih _ (by simp only [List.length_drop, List.length_cons]; omega) hu rfl,
          scan_of_opens (ho.of_append hv.noWord hn), List.map_append, map_shift_shift,
          List.cons_append, List.length_drop, List.length_cons, hlen]
        congr 4
        simp only [List.length_cons] at hn
        omega

end Span

theorem getElem?_maskFrom (offset : Nat) (spans : List Span) (t : Text) (i : Nat) :
    (maskFrom offset spans t)[i]? =
      t[i]?.map fun c => if c ≠ '\n' ∧ spans.any (·.covers (offset + i)) then ' ' else c := by
  induction t generalizing offset i with
  | nil => simp [maskFrom]
  | cons c t ih =>
    cases i with
    | zero => simp [maskFrom]
    | succ i =>
      have ho : offset + (i + 1) = offset + 1 + i := by omega
      simp only [maskFrom, List.getElem?_cons_succ, ih, ho]

/-- A masked character is a blank if some span covers it, and else as it was. -/
theorem getElem?_masked (t : Text) (i : Nat) :
    (masked t)[i]? = t[i]?.map fun c =>
      if c ≠ '\n' ∧ (Span.scan t).any (·.covers i) then ' ' else c := by
  rw [masked, mask, getElem?_maskFrom, Nat.zero_add]

theorem length_masked (t : Text) : (masked t).length = t.length := by
  have hm : ∀ offset spans, ∀ t : Text, (maskFrom offset spans t).length = t.length := by
    intro offset spans t
    induction t generalizing offset with
    | nil => rfl
    | cons c t ih => simp [maskFrom, ih]
  exact hm 0 _ t

theorem masked_append {u v : Text}
    (h : Span.scan (u ++ v) = Span.scan u ++ (Span.scan v).map (Span.shift u.length)) :
    masked (u ++ v) = masked u ++ masked v := by
  refine List.ext_getElem? fun i => ?_
  rw [getElem?_masked, h, List.any_append]
  by_cases hi : i < u.length
  · have hr : ((Span.scan v).map (Span.shift u.length)).any (·.covers i) = false := by
      rw [List.any_map, List.any_eq_false]
      intro s _
      rw [Function.comp_apply, Span.covers_iff, Span.shift_start]
      omega
    rw [List.getElem?_append_left hi, List.getElem?_append_left (by rwa [length_masked]),
      getElem?_masked, hr, Bool.or_false]
  · have hl : (Span.scan u).any (·.covers i) = false := by
      rw [List.any_eq_false]
      intro s hs
      have := (Span.of_mem_scan hs).2.1
      rw [Span.covers_iff]
      omega
    have hr : ((Span.scan v).map (Span.shift u.length)).any (·.covers i) =
        (Span.scan v).any (·.covers (i - u.length)) := by
      rw [List.any_map]
      refine congrArg (List.any _) (funext fun s => ?_)
      rw [Function.comp_apply, Bool.eq_iff_iff, Span.covers_iff, Span.covers_iff, Span.shift_start,
        Span.shift_stop]
      omega
    rw [List.getElem?_append_right (by omega),
      List.getElem?_append_right (by rw [length_masked]; omega), length_masked, getElem?_masked, hl,
      hr, Bool.false_or]

/-- A character that a masked text shows stands in the text, outside its spans. -/
theorem of_getElem?_masked {t : Text} {i : Nat} {c : Char} (h : (masked t)[i]? = some c)
    (hc : Text.isBlank c = false) :
    t[i]? = some c ∧ ∀ s ∈ Span.scan t, s.stop ≤ i ∨ i < s.start := by
  have hb : c ≠ ' ' := by
    rintro rfl
    exact absurd hc (by decide)
  have hn : c ≠ '\n' := by
    rintro rfl
    exact absurd hc (by decide)
  rw [getElem?_masked] at h
  obtain ⟨d, hd, he⟩ := Option.map_eq_some_iff.mp h
  split at he
  next => exact absurd he.symm hb
  next hcovered =>
    subst he
    refine ⟨hd, fun s hs => ?_⟩
    by_contra hno
    exact hcovered ⟨hn, List.any_eq_true.mpr ⟨s, hs, Span.covers_iff.mpr (by omega)⟩⟩

theorem getElem?_masked_of_clear {t : Text} {i : Nat}
    (h : ∀ s ∈ Span.scan t, s.stop ≤ i ∨ i < s.start) : (masked t)[i]? = t[i]? := by
  have hc : (Span.scan t).any (·.covers i) = false := by
    rw [List.any_eq_false]
    intro s hs
    have := h s hs
    rw [Span.covers_iff]
    omega
  simp [getElem?_masked, hc]

theorem slice_append (u v w : Text) : slice (u ++ (v ++ w)) u.length (u.length + v.length) = v := by
  rw [slice, ← List.append_assoc, ← List.length_append, List.take_left, List.drop_left]

theorem slice_self (t : Text) (offset : Nat) : slice t offset offset = [] := by
  rw [slice, List.drop_eq_nil_iff, List.length_take]
  omega

theorem getElem?_slice (t : Text) (start stop i : Nat) :
    (slice t start stop)[i]? = if start + i < stop then t[start + i]? else none := by
  rw [slice, List.getElem?_drop, List.getElem?_take]

theorem length_slice {t : Text} {start stop : Nat} (h : stop ≤ t.length) :
    (slice t start stop).length = stop - start := by
  simp [slice, Nat.min_eq_left h]

theorem head?_slice {t : Text} {start stop : Nat} (h : start < stop) :
    (slice t start stop).head? = t[start]? := by
  rw [List.head?_eq_getElem?, getElem?_slice, Nat.add_zero, if_pos h]

theorem mem_slice_iff {t : Text} {start stop : Nat} {c : Char} :
    c ∈ slice t start stop ↔ ∃ i, start ≤ i ∧ i < stop ∧ t[i]? = some c := by
  rw [List.mem_iff_getElem?]
  constructor
  · rintro ⟨i, hi⟩
    rw [getElem?_slice] at hi
    split at hi
    next hlt => exact ⟨start + i, Nat.le_add_right _ _, hlt, hi⟩
    next => simp at hi
  · rintro ⟨i, hle, hlt, hi⟩
    refine ⟨i - start, ?_⟩
    rw [getElem?_slice, Nat.add_sub_cancel' hle, if_pos hlt, hi]

theorem mem_slice_of_le {t : Text} {start start' stop : Nat} (h : start ≤ start') {c : Char}
    (hc : c ∈ slice t start' stop) : c ∈ slice t start stop := by
  obtain ⟨i, hle, hlt, hi⟩ := mem_slice_iff.mp hc
  exact mem_slice_iff.mpr ⟨i, h.trans hle, hlt, hi⟩

theorem take_append_slice {start stop : Nat} (h : start ≤ stop) (t : Text) :
    t.take start ++ slice t start stop = t.take stop := by
  rw [slice, ← Nat.min_eq_left h, ← List.take_take, Nat.min_eq_left h, List.take_append_drop]

theorem slice_append_drop {start stop : Nat} (h : start ≤ stop) (t : Text) :
    slice t start stop ++ t.drop stop = t.drop start := by
  have hd : t.drop stop = (t.drop start).drop (stop - start) := by
    rw [List.drop_drop, Nat.add_sub_cancel' h]
  rw [slice, List.drop_take, hd, List.take_append_drop]

theorem slice_masked_of_clear {t : Text} {start stop : Nat}
    (h : ∀ s ∈ Span.scan t, s.stop ≤ start ∨ stop ≤ s.start) :
    slice (masked t) start stop = slice t start stop := by
  refine List.ext_getElem? fun i => ?_
  rw [getElem?_slice, getElem?_slice]
  split
  next hi =>
    refine getElem?_masked_of_clear fun s hs => ?_
    have := h s hs
    omega
  next => rfl

theorem exists_opening_of_mem_scan {t : Text} {s : Span} (h : s ∈ Span.scan t) :
    ∃ c, t[s.start]? = some c ∧ Span.IsOpening c := by
  obtain ⟨c, hc, ho⟩ := (Span.of_mem_scan h).2.2.isOpening
  exact ⟨c, by rwa [List.head?_drop] at hc, ho⟩

/-- The last character of a comment or string literal that the text goes on behind is no blank,
unless a line ends there. -/
theorem last_of_mem_scan {t : Text} {s : Span} (h : s ∈ Span.scan t) (hlt : s.stop < t.length) :
    (∃ c, t[s.stop - 1]? = some c ∧ Text.isBlank c = false) ∨ '\n' ∉ slice t s.start s.stop := by
  obtain ⟨hle, -, ho⟩ := Span.of_mem_scan h
  have hlen : (slice t s.start s.stop).length = s.stop - s.start := length_slice hlt.le
  have hclosed : Span.Closed s.kind (slice t s.start s.stop) (t.drop s.stop) := by
    refine Span.Opens.closed ?_ fun he => by rw [List.drop_eq_nil_iff] at he; omega
    rw [slice_append_drop hle.le, hlen]
    exact ho
  have hlast : (slice t s.start s.stop).getLast? = t[s.stop - 1]? := by
    rw [List.getLast?_eq_getElem?, getElem?_slice, hlen, if_pos (by omega)]
    congr 1
    omega
  generalize slice t s.start s.stop = u at hclosed hlast
  generalize t.drop s.stop = v at hclosed
  generalize s.kind = kind at hclosed
  cases hclosed with
  | block u v =>
    refine Or.inl ⟨'/', ?_, by decide⟩
    rw [← hlast, List.getLast?_append]
    rfl
  | line hn v => exact Or.inr hn
  | @string u c hc v =>
    refine Or.inl ⟨c, by simpa using hlast.symm, ?_⟩
    rcases hc with (rfl | rfl) | hc
    · decide
    · decide
    · exact not_isBlank_of_identifierChar hc

def IsBrace (c : Char) : Prop := c = '{' ∨ c = '}'

theorem IsBrace.first?_eq_none {c : Char} (h : IsBrace c) (t : Text) :
    Span.first? (c :: t) = none := by
  rcases h with rfl | rfl <;> rfl

theorem IsBrace.not_isBlank {c : Char} (h : IsBrace c) : Text.isBlank c = false := by
  rcases h with rfl | rfl <;> decide

theorem IsBrace.separates {c : Char} (h : IsBrace c) (t : Text) : Span.Separates (c :: t) := by
  rcases h with rfl | rfl
  · exact ⟨by simp, stops_cons.mpr (by decide)⟩
  · exact ⟨by simp, stops_cons.mpr (by decide)⟩

/-- A brace that the masked text shows divides the spans of a text. -/
theorem scan_append_brace {u v : Text} {c : Char} (hc : IsBrace c)
    (h : (masked (u ++ c :: v))[u.length]? = some c) :
    Span.scan (u ++ c :: v) =
      Span.scan u ++ (Span.scan v).map (Span.shift (u.length + 1)) ∧
    masked (u ++ c :: v) = masked u ++ c :: masked v := by
  have hs : Span.scan (u ++ c :: v) =
      Span.scan u ++ (Span.scan (c :: v)).map (Span.shift u.length) := by
    refine Span.scan_append (hc.separates v) fun s hs hlt => ?_
    have := (of_getElem?_masked h hc.not_isBlank).2 s hs
    omega
  have hone : Span.scan [c] = [] := by
    rw [Span.scan_cons_of_none (hc.first?_eq_none []), Span.scan_nil, List.map_nil]
  have hcv : Span.scan ([c] ++ v) = Span.scan [c] ++ (Span.scan v).map (Span.shift 1) := by
    rw [hone, List.nil_append, List.singleton_append,
      Span.scan_cons_of_none (hc.first?_eq_none v)]
  have hm : masked (c :: v) = c :: masked v := by
    have hmc : masked [c] = [c] := by simp [masked, mask, hone, maskFrom]
    rw [← List.singleton_append, masked_append hcv, hmc, List.singleton_append]
  refine ⟨?_, by rw [masked_append hs, hm]⟩
  rw [hs, Span.scan_cons_of_none (hc.first?_eq_none v), Span.map_shift_shift, Nat.add_comm 1]

/-- A brace of the masked text divides the text, its mask and its spans. -/
theorem exists_of_masked_brace {t before after : Text} {c : Char} (hc : IsBrace c)
    (h : masked t = before ++ c :: after) :
    ∃ u v, t = u ++ c :: v ∧ masked u = before ∧ masked v = after ∧
      Span.scan t = Span.scan u ++ (Span.scan v).map (Span.shift (u.length + 1)) := by
  have hi : (masked t)[before.length]? = some c := by simp [h]
  obtain ⟨hlt, hget⟩ := List.getElem?_eq_some_iff.mp (of_getElem?_masked hi hc.not_isBlank).1
  have ht : t = t.take before.length ++ c :: t.drop (before.length + 1) := by
    rw [← hget, List.cons_getElem_drop_succ, List.take_append_drop]
  have hu : (t.take before.length).length = before.length := List.length_take_of_le hlt.le
  generalize t.take before.length = u at ht hu
  generalize t.drop (before.length + 1) = v at ht
  subst ht
  obtain ⟨hs, hm⟩ := scan_append_brace hc (by rwa [hu])
  rw [h] at hm
  obtain ⟨hbefore, hafter⟩ := List.append_inj hm (by rw [length_masked, hu])
  exact ⟨u, v, rfl, hbefore.symm, (List.cons.inj hafter).2.symm, hs⟩

end AnnotatedRoutes.Source
