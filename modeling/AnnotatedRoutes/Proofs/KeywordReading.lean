import AnnotatedRoutes.Proofs.Cancellation
import AnnotatedRoutes.Proofs.TokenReading

namespace AnnotatedRoutes.Source

def Blank (t : Text) : Prop := ∀ c ∈ t, Text.isBlank c = true

instance (t : Text) : Decidable (Blank t) :=
  List.decidableBAll (fun c => Text.isBlank c = true) t

theorem blank_append {u v : Text} : Blank (u ++ v) ↔ Blank u ∧ Blank v := List.forall_mem_append

/-- A word that blanks delimit. -/
def Solid (t : Text) : Prop := t ≠ [] ∧ ∀ c ∈ t, Text.isBlank c = false

instance (t : Text) : Decidable (Solid t) :=
  decidable_of_iff (t ≠ [] ∧ t.all (fun c => !Text.isBlank c) = true) (by simp [Solid])

theorem Solid.stops {t : Text} (h : Solid t) (rest : Text) : Stops Text.isBlank (t ++ rest) := by
  cases t with
  | nil => exact absurd rfl h.1
  | cons c t => exact stops_cons.mpr (h.2 c (by simp))

theorem Word.stops_isBlank {name : Text} (h : Identifier name) (rest : Text) :
    Stops Text.isBlank (name ++ rest) :=
  h.stops (fun _ hc => not_isBlank_of_identifierChar (isIdentifierChar_of_start hc)) rest

theorem Blank.stops {p : Char → Bool} {gap : Text} (h : Blank gap)
    (hp : ∀ c, p c = true → Text.isBlank c = false) : Stops p gap := by
  intro c hc
  by_contra hn
  rw [Bool.not_eq_false] at hn
  exact absurd (h c (List.mem_of_mem_head? hc)) (by simp [hp c hn])

theorem afterBlanks?_eq_some_iff {t rest : Text} :
    afterBlanks? t = some rest ↔
      ∃ blanks, t = blanks ++ rest ∧ blanks ≠ [] ∧ Blank blanks ∧ Stops Text.isBlank rest := by
  constructor
  · intro h
    cases t with
    | nil => simp [afterBlanks?] at h
    | cons c t =>
      simp only [afterBlanks?] at h
      split at h
      next hc =>
        obtain rfl := Option.some.inj h
        refine ⟨c :: t.takeWhile Text.isBlank, ?_, by simp, ?_, stops_dropWhile _ t⟩
        · simp [Text.trimStart, Text.trimStartOf]
        · intro d hd
          rcases List.mem_cons.mp hd with rfl | hd
          · exact hc
          · exact List.mem_takeWhile_imp hd
      next => simp at h
  · rintro ⟨blanks, rfl, hne, hb, hr⟩
    cases blanks with
    | nil => exact absurd rfl hne
    | cons c blanks =>
      obtain ⟨hc, hb⟩ := List.forall_mem_cons.mp hb
      rw [List.cons_append, afterBlanks?, if_pos hc, Text.trimStart, Text.trimStartOf,
        dropWhile_run hb hr]

theorem afterKeyword?_eq_some_iff {keyword t rest : Text} :
    afterKeyword? keyword t = some rest ↔
      ∃ blanks, t = keyword ++ (blanks ++ rest) ∧ blanks ≠ [] ∧ Blank blanks ∧
        Stops Text.isBlank rest := by
  rw [afterKeyword?, Option.bind_eq_some_iff]
  constructor
  · rintro ⟨u, hu, hr⟩
    obtain ⟨blanks, rfl, h⟩ := afterBlanks?_eq_some_iff.mp hr
    exact ⟨blanks, Text.after?_eq_some_iff.mp hu, h⟩
  · rintro ⟨blanks, rfl, h⟩
    exact ⟨_, Text.after?_eq_some_iff.mpr rfl, afterBlanks?_eq_some_iff.mpr ⟨blanks, rfl, h⟩⟩

theorem of_anyKeyword? {keywords : List Text} {t keyword rest : Text}
    (h : anyKeyword? keywords t = some (keyword, rest)) :
    keyword ∈ keywords ∧ afterKeyword? keyword t = some rest := by
  induction keywords with
  | nil => simp [anyKeyword?] at h
  | cons k keywords ih =>
    simp only [anyKeyword?] at h
    split at h
    next hk =>
      obtain ⟨rfl, rfl⟩ := Prod.mk.inj (Option.some.inj h)
      exact ⟨List.mem_cons_self, hk⟩
    next =>
      obtain ⟨hm, hr⟩ := ih h
      exact ⟨List.mem_cons_of_mem _ hm, hr⟩

/-- Blanks tell a keyword from every other one. -/
theorem anyKeyword?_of_mem {keywords : List Text} (hw : ∀ k ∈ keywords, Solid k)
    {keyword t rest : Text} (hm : keyword ∈ keywords) (h : afterKeyword? keyword t = some rest) :
    anyKeyword? keywords t = some (keyword, rest) := by
  induction keywords with
  | nil => simp at hm
  | cons k keywords ih =>
    obtain ⟨hk, hw'⟩ := List.forall_mem_cons.mp hw
    simp only [anyKeyword?]
    cases hf : afterKeyword? k t with
    | some r =>
      obtain ⟨blanks, ht, hne, hb, hr⟩ := afterKeyword?_eq_some_iff.mp h
      obtain ⟨blanks', ht', hne', hb', hr'⟩ := afterKeyword?_eq_some_iff.mp hf
      have ends : ∀ {blanks rest : Text}, blanks ≠ [] → Blank blanks →
          ∀ c, (blanks ++ rest).head? = some c → ¬ Text.isBlank c = false := by
        intro blanks rest hne hb c hc
        cases blanks with
        | nil => exact absurd rfl hne
        | cons d blanks =>
          obtain rfl := Option.some.inj hc
          simp [hb d (by simp)]
      obtain ⟨rfl, -⟩ := append_inj_of_run hk.2 (hw keyword hm).2 (ends hne' hb') (ends hne hb)
        (ht'.symm.trans ht)
      rw [Option.some.inj (hf.symm.trans h)]
    | none =>
      rcases List.mem_cons.mp hm with rfl | hm
      · exact absurd (hf.symm.trans h) (by simp)
      · exact ih hw' hm

/-- A run of keywords, each with blanks after it. -/
inductive KeywordRun (keywords : List Text) : List Text → Text → Prop
  | nil : KeywordRun keywords [] []
  | cons {k : Text} {ks : List Text} {blanks run : Text} (hk : k ∈ keywords) (hne : blanks ≠ [])
    (hb : Blank blanks) (h : KeywordRun keywords ks run) :
    KeywordRun keywords (k :: ks) (k ++ (blanks ++ run))

theorem KeywordRun.stops {keywords ks : List Text} (hw : ∀ k ∈ keywords, Solid k) {run rest : Text}
    (h : KeywordRun keywords ks run) (hr : Stops Text.isBlank rest) :
    Stops Text.isBlank (run ++ rest) := by
  cases h with
  | nil => exact hr
  | cons hk hne hb h =>
    rw [List.append_assoc]
    exact (hw _ hk).stops _

theorem KeywordRun.not_mem {keywords ks : List Text} {run : Text} (h : KeywordRun keywords ks run)
    {c : Char} (hk : ∀ k ∈ keywords, c ∉ k) (hc : Text.isBlank c = false) : c ∉ run := by
  have hblank : ∀ {t : Text}, Blank t → c ∉ t := fun ht hm => by simp [ht c hm] at hc
  induction h with
  | nil => simp
  | cons hm _ hb _ ih =>
    simp only [List.mem_append, not_or]
    exact ⟨hk _ hm, hblank hb, ih⟩

theorem keywordRun_of_none {keywords : List Text} {t : Text} (h : anyKeyword? keywords t = none) :
    keywordRun keywords t = ([], t) := by
  rw [keywordRun]
  split
  next => rfl
  next hs => exact absurd (h.symm.trans hs) (by simp)

theorem keywordRun_of_some {keywords : List Text} {t keyword rest : Text}
    (h : anyKeyword? keywords t = some (keyword, rest)) :
    keywordRun keywords t =
      (keyword :: (keywordRun keywords rest).1, (keywordRun keywords rest).2) := by
  rw [keywordRun]
  split
  next hn => exact absurd (hn.symm.trans h) (by simp)
  next hs =>
    obtain ⟨rfl, rfl⟩ := Prod.mk.inj (Option.some.inj (hs.symm.trans h))
    rfl

/-- A run of keywords is read up to where none follows. -/
theorem keywordRun_append {keywords ks : List Text} (hw : ∀ k ∈ keywords, Solid k) {run rest : Text}
    (h : KeywordRun keywords ks run) (hr : Stops Text.isBlank rest)
    (hn : anyKeyword? keywords rest = none) : keywordRun keywords (run ++ rest) = (ks, rest) := by
  induction h with
  | nil => exact keywordRun_of_none hn
  | @cons k ks blanks run hk hne hb h ih =>
    have hstop := h.stops hw hr
    have ht : k ++ (blanks ++ run) ++ rest = k ++ (blanks ++ (run ++ rest)) := by
      simp only [List.append_assoc]
    have hs := anyKeyword?_of_mem hw hk (afterKeyword?_eq_some_iff.mpr ⟨blanks, ht, hne, hb, hstop⟩)
    rw [keywordRun_of_some hs, ih]

theorem exists_of_keywordRun (keywords : List Text) (t : Text) :
    ∃ run, t = run ++ (keywordRun keywords t).2 ∧
      KeywordRun keywords (keywordRun keywords t).1 run ∧
      anyKeyword? keywords (keywordRun keywords t).2 = none := by
  induction hlen : t.length using Nat.strong_induction_on generalizing t with
  | _ len ih =>
    cases h : anyKeyword? keywords t with
    | none =>
      rw [keywordRun_of_none h]
      exact ⟨[], rfl, .nil, h⟩
    | some found =>
      obtain ⟨keyword, rest⟩ := found
      rw [keywordRun_of_some h]
      obtain ⟨run, hrest, hrun, hn⟩ := ih rest.length (hlen ▸ anyKeyword?_length h) rest rfl
      obtain ⟨hk, ha⟩ := of_anyKeyword? h
      obtain ⟨blanks, ht, hne, hb, _⟩ := afterKeyword?_eq_some_iff.mp ha
      refine ⟨keyword ++ (blanks ++ run), ?_, .cons hk hne hb hrun, hn⟩
      simp only [List.append_assoc, ← hrest, ht]

end AnnotatedRoutes.Source
