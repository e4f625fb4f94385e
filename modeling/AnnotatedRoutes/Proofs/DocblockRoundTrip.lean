import AnnotatedRoutes.Annotation.Directive
import AnnotatedRoutes.Annotation.Docblock
import AnnotatedRoutes.Proofs.TextShape

namespace AnnotatedRoutes

namespace Docblock

def gutter : Text := " * ".toList

/-- A docblock with one line for each of some texts. -/
def print (texts : List Text) : Text :=
  Text.join ['\n'] (opening :: texts.map (gutter ++ ·) ++ [' ' :: closing])

/-- A text that a docblock line carries unchanged. -/
structure Plain (t : Text) : Prop where
  trimmed : t.Trimmed
  unbroken : t.Unbroken
  noClosing : ¬ closing <:+ t

instance (t : Text) : Decidable (Plain t) :=
  decidable_of_iff (t.Trimmed ∧ t.Unbroken ∧ ¬ closing <:+ t)
    ⟨fun ⟨ht, hu, hc⟩ => ⟨ht, hu, hc⟩, fun ⟨ht, hu, hc⟩ => ⟨ht, hu, hc⟩⟩

theorem withoutOpening_of_ne {c : Char} (h : c ≠ '/') (t : Text) :
    withoutOpening (c :: t) = c :: t := by
  have ho : opening = ['/', '*', '*'] := by decide
  simp [withoutOpening, ho, Text.after?, Ne.symm h]

theorem withoutClosing_of_not_suffix {t : Text} (h : ¬ closing <:+ t) : withoutClosing t = t := by
  have hb : Text.before? closing t = none := by
    rw [Text.before?, Option.map_eq_none_iff]
    cases ha : Text.after? closing.reverse t.reverse with
    | none => rfl
    | some r =>
      have he := Text.after?_eq_some_iff.mp ha
      rw [List.reverse_eq_iff, List.reverse_append, List.reverse_reverse] at he
      exact absurd ⟨r.reverse, he.symm⟩ h
  rw [withoutClosing, hb, Option.getD_none]

/-- A closing delimiter does not reach back over a character that is none of its own. -/
theorem closing_suffix_of_append {c : Char} (hs : c ≠ '*') (he : c ≠ '/') {u v : Text}
    (h : closing <:+ u ++ c :: v) : closing <:+ v := by
  have hc : closing = ['*', '/'] := by decide
  rcases List.suffix_or_suffix_of_suffix h (List.suffix_append u (c :: v)) with h | h
  · rcases List.suffix_cons_iff.mp h with h | h
    · rw [hc] at h
      exact absurd (List.cons.inj h).1.symm hs
    · exact h
  · simp [hc, List.suffix_cons_iff, hs, he] at h

theorem content_gutter {t : Text} (h : Plain t) (hne : t ≠ []) : content (gutter ++ t) = t := by
  have hg : gutter ++ t = ' ' :: '*' :: ' ' :: t := by rfl
  have ht : Text.trim ('*' :: ' ' :: t) = '*' :: ' ' :: t :=
    h.trimmed.append hne (u := ['*', ' ']) (c := '*') rfl (by decide)
  have hn : ¬ closing <:+ '*' :: ' ' :: t :=
    fun hs => h.noClosing (closing_suffix_of_append (u := ['*']) (by decide) (by decide) hs)
  rw [content, hg, Text.trim_cons_of_blank (by decide), ht, withoutOpening_of_ne (by decide),
    withoutClosing_of_not_suffix hn, ht, withoutGutter, Text.trim_cons_of_blank (by decide)]
  exact h.trimmed

theorem lines_print {texts : List Text} (h : ∀ t ∈ texts, Plain t ∧ t ≠ []) :
    lines (print texts) = texts := by
  have hu : ∀ l ∈ opening :: texts.map (gutter ++ ·), l.Unbroken := by
    intro l hl
    rcases List.mem_cons.mp hl with rfl | hl
    · decide
    · obtain ⟨t, ht, rfl⟩ := List.mem_map.mp hl
      exact Text.unbroken_append.mpr ⟨by decide, (h t ht).1.unbroken⟩
  have hc : texts.map (fun t => content (gutter ++ t)) = texts := by
    rw [List.map_congr_left fun t ht => content_gutter (h t ht).1 (h t ht).2, List.map_id']
  rw [lines, print, Text.lines_join hu (by decide) (by decide), List.map_append, List.map_cons,
    List.map_map, Function.comp_def, hc]
  have ho : content opening = [] := by rfl
  have hcl : content (' ' :: closing) = [] := by rfl
  simpa [ho, hcl] using fun t ht => (h t ht).2

/-- A key and an equals sign before a plain text leave it plain. -/
theorem Plain.key {v : Text} (hv : Plain v) (key : Text) {c : Char} (hc : key.head? = some c)
    (hb : Text.isBlank c = false) (hu : key.Unbroken) : Plain (key ++ '=' :: v) := by
  refine ⟨?_, ?_, ?_⟩
  · have he : Text.Trimmed ['='] := by decide
    cases v with
    | nil => exact he.append (by simp) hc hb
    | cons d v =>
      have hd : Text.Trimmed ('=' :: d :: v) :=
        hv.trimmed.append (by simp) (u := ['=']) (c := '=') rfl (by decide)
      exact hd.append (by simp) hc hb
  · exact Text.unbroken_append.mpr ⟨hu, Text.unbroken_cons.mpr ⟨by decide, hv.unbroken⟩⟩
  · exact fun h => hv.noClosing (closing_suffix_of_append (by decide) (by decide) h)

end Docblock

/-- A block of annotation lines in a method docblock. -/
inductive AnnotationBlock where
  | route (method url name : Text) (asserts values : List Text)
  | acl (rules : List Text)

namespace AnnotationBlock

def lines : AnnotationBlock → List Text
  | .route method url name asserts values =>
    ["@route(".toList, "method=".toList ++ method, "url=".toList ++ url, "name=".toList ++ name] ++
      asserts ++ values ++ [Directive.blockClosing]
  | .acl rules => "@acl(".toList :: rules ++ [Directive.blockClosing]

def routes : AnnotationBlock → List Route
  | .route method url name asserts values =>
    [{ method, url, name, asserts := asserts.map (Directive.chainArrow ++ ·),
       values := values.map (Directive.chainArrow ++ ·) }]
  | .acl _ => []

def rules : AnnotationBlock → List Text
  | .route .. => []
  | .acl rules => rules

def urls : AnnotationBlock → List Text
  | .route _ url _ _ _ => [url]
  | .acl _ => []

/-- Calls begin with their keyword, and no access rule is empty or ends the block. -/
def WellFormed : AnnotationBlock → Prop
  | .route method url name asserts values =>
    Docblock.Plain method ∧ Docblock.Plain url ∧ Docblock.Plain name ∧
      (∀ a ∈ asserts, Docblock.Plain a ∧ "assert".toList <+: a) ∧
      ∀ v ∈ values, Docblock.Plain v ∧ "value".toList <+: v
  | .acl rules => ∀ r ∈ rules, Docblock.Plain r ∧ r ≠ [] ∧ r ≠ Directive.blockClosing

instance (a : AnnotationBlock) : Decidable a.WellFormed :=
  match a with
  | .route .. => inferInstanceAs (Decidable (_ ∧ _ ∧ _ ∧ _ ∧ _))
  | .acl _ => inferInstanceAs (Decidable (∀ _ ∈ _, _))

theorem plain_of_mem_lines {a : AnnotationBlock} (h : a.WellFormed) :
    ∀ l ∈ a.lines, Docblock.Plain l ∧ l ≠ [] := by
  cases a with
  | route method url name asserts values =>
    obtain ⟨hm, hu, hn, ha, hv⟩ := h
    have hk : ∀ l ∈ ["@route(".toList, "method=".toList ++ method, "url=".toList ++ url,
        "name=".toList ++ name], Docblock.Plain l ∧ l ≠ [] := by
      simp only [List.forall_mem_cons]
      refine ⟨by decide, ⟨?_, by simp⟩, ⟨?_, by simp⟩, ⟨?_, by simp⟩, by simp⟩
      · exact hm.key "method".toList (c := 'm') rfl (by decide) (by decide)
      · exact hu.key "url".toList (c := 'u') rfl (by decide) (by decide)
      · exact hn.key "name".toList (c := 'n') rfl (by decide) (by decide)
    have hc : ∀ l ∈ asserts ++ values, Docblock.Plain l ∧ l ≠ [] := by
      intro l hl
      rcases List.mem_append.mp hl with hl | hl
      · exact ⟨(ha l hl).1, List.IsPrefix.ne_nil (ha l hl).2 (by decide)⟩
      · exact ⟨(hv l hl).1, List.IsPrefix.ne_nil (hv l hl).2 (by decide)⟩
    intro l hl
    simp only [lines, List.append_assoc, List.mem_append] at hl
    rcases hl with hl | hl | hl | hl
    · exact hk l hl
    · exact hc l (List.mem_append_left _ hl)
    · exact hc l (List.mem_append_right _ hl)
    · rw [List.mem_singleton.mp hl]
      decide
  | acl rules =>
    intro l hl
    rcases List.mem_append.mp hl with hl | hl
    · rcases List.mem_cons.mp hl with rfl | hl
      · decide
      · exact ⟨(h l hl).1, (h l hl).2.1⟩
    · rw [List.mem_singleton.mp hl]
      decide

end AnnotationBlock

namespace Directive

theorem ofLine_method (v : Text) : ofLine ("method=".toList ++ v) = .method (Text.trim v) := by rfl

theorem ofLine_url (v : Text) : ofLine ("url=".toList ++ v) = .url (Text.trim v) := by rfl

theorem ofLine_name (v : Text) : ofLine ("name=".toList ++ v) = .name (Text.trim v) := by rfl

theorem ofLine_assert {line : Text} (h : "assert".toList <+: line) :
    ofLine line = .assertion (chainArrow ++ line) := by
  obtain ⟨t, rfl⟩ := h
  rfl

theorem ofLine_value {line : Text} (h : "value".toList <+: line) :
    ofLine line = .value (chainArrow ++ line) := by
  obtain ⟨t, rfl⟩ := h
  rfl

namespace Reading

theorem read_in_route (d : Route) (action : Action) (urls : List Text) (line : Text) :
    read ⟨.route d, action, urls⟩ line = apply ⟨.route d, action, urls⟩ (ofLine line) := rfl

/-- A run of lines that each add one call to a list of the draft adds them all, in order. -/
theorem foldl_read_calls (r : Reading) {draft : List Text → Route} {lines : List Text}
    (h : ∀ l ∈ lines, ∀ calls, read { r with block := .route (draft calls) } l =
      { r with block := .route (draft (calls ++ [chainArrow ++ l])) }) (calls : List Text) :
    lines.foldl read { r with block := .route (draft calls) } =
      { r with block := .route (draft (calls ++ lines.map (chainArrow ++ ·))) } := by
  induction lines generalizing calls with
  | nil => simp
  | cons l lines ih =>
    obtain ⟨hl, h⟩ := List.forall_mem_cons.mp h
    rw [List.foldl_cons, hl calls, ih h]
    simp

theorem foldl_read_asserts (r : Reading) (d : Route) {asserts : List Text}
    (h : ∀ a ∈ asserts, "assert".toList <+: a) :
    asserts.foldl read { r with block := .route d } =
      { r with
        block := .route { d with asserts := d.asserts ++ asserts.map (chainArrow ++ ·) } } := by
  have hs : ∀ a ∈ asserts, ∀ calls, read { r with block := .route { d with asserts := calls } } a =
      { r with block := .route { d with asserts := calls ++ [chainArrow ++ a] } } := by
    intro a ha calls
    simp only [read_in_route, ofLine_assert (h a ha), apply]
  exact foldl_read_calls r hs d.asserts

theorem foldl_read_values (r : Reading) (d : Route) {values : List Text}
    (h : ∀ v ∈ values, "value".toList <+: v) :
    values.foldl read { r with block := .route d } =
      { r with
        block := .route { d with values := d.values ++ values.map (chainArrow ++ ·) } } := by
  have hs : ∀ v ∈ values, ∀ calls, read { r with block := .route { d with values := calls } } v =
      { r with block := .route { d with values := calls ++ [chainArrow ++ v] } } := by
    intro v hv calls
    simp only [read_in_route, ofLine_value (h v hv), apply]
  exact foldl_read_calls r hs d.values

theorem foldl_read_rules (r : Reading) {rules : List Text}
    (h : ∀ rule ∈ rules, rule ≠ blockClosing) :
    rules.foldl read { r with block := .acl } =
      { r with block := .acl, action := { r.action with acl := r.action.acl ++ rules } } := by
  induction rules generalizing r with
  | nil => simp
  | cons rule rules ih =>
    obtain ⟨hr, h⟩ := List.forall_mem_cons.mp h
    have hs : read { r with block := .acl } rule = { r.addRule rule with block := .acl } := by
      simp only [read, hr, if_false, addRule]
    rw [List.foldl_cons, hs, ih _ h]
    simp [addRule]

/-- Outside a block, the lines of an annotation add what it says and leave no block open. -/
theorem foldl_read_lines (r : Reading) {a : AnnotationBlock} (h : a.WellFormed) :
    a.lines.foldl read { r with block := .none } =
      { block := .none
        action :=
          { routes := r.action.routes ++ a.routes, acl := r.action.acl ++ a.rules }
        urls := r.urls ++ a.urls } := by
  cases a with
  | route method url name asserts values =>
    obtain ⟨hm, hu, hn, ha, hv⟩ := h
    have hm : Text.trim method = method := hm.trimmed
    have hu : Text.trim url = url := hu.trimmed
    have hn : Text.trim name = name := hn.trimmed
    have hopen : ["@route(".toList, "method=".toList ++ method, "url=".toList ++ url,
        "name=".toList ++ name].foldl read { r with block := .none } =
          { r with block := .route { method, url, name }, urls := r.urls ++ [url] } := by
      have ho : read { r with block := .none } "@route(".toList =
          { r with block := .route {} } := by rfl
      simp only [List.foldl_cons, List.foldl_nil, ho, read_in_route, ofLine_method, ofLine_url,
        ofLine_name, apply, hm, hu, hn]
    rw [AnnotationBlock.lines, List.foldl_append, List.foldl_append, List.foldl_append, hopen,
      foldl_read_asserts { r with urls := r.urls ++ [url] } _ fun a h => (ha a h).2,
      foldl_read_values { r with urls := r.urls ++ [url] } _ fun v h => (hv v h).2]
    simp only [List.nil_append, AnnotationBlock.routes, AnnotationBlock.rules, AnnotationBlock.urls,
      List.append_nil]
    rfl
  | acl rules =>
    have ho : read { r with block := .none } "@acl(".toList = { r with block := .acl } := by rfl
    simp only [AnnotationBlock.lines, List.foldl_append, List.foldl_cons, List.foldl_nil, ho]
    rw [foldl_read_rules r fun rule hr => (h rule hr).2.2]
    simp only [AnnotationBlock.routes, AnnotationBlock.rules, AnnotationBlock.urls, List.append_nil]
    rfl

theorem foldl_read_annotations (r : Reading) {as : List AnnotationBlock}
    (h : ∀ a ∈ as, a.WellFormed) :
    (as.flatMap (·.lines)).foldl read { r with block := .none } =
      { block := .none
        action :=
          { routes := r.action.routes ++ as.flatMap (·.routes)
            acl := r.action.acl ++ as.flatMap (·.rules) }
        urls := r.urls ++ as.flatMap (·.urls) } := by
  induction as generalizing r with
  | nil => simp
  | cons a as ih =>
    obtain ⟨ha, h⟩ := List.forall_mem_cons.mp h
    rw [List.flatMap_cons, List.foldl_append, foldl_read_lines r ha]
    have hs := ih ⟨.none, ⟨r.action.routes ++ a.routes, r.action.acl ++ a.rules⟩,
      r.urls ++ a.urls⟩ h
    simpa using hs

end Reading

/-- Reading undoes printing: the routes and the access rules come back in order, and the URLs are
registered in order. -/
theorem readAction_print {as : List AnnotationBlock} (h : ∀ a ∈ as, a.WellFormed) :
    readAction (Docblock.lines (Docblock.print (as.flatMap (·.lines)))) =
      { block := .none
        action := { routes := as.flatMap (·.routes), acl := as.flatMap (·.rules) }
        urls := as.flatMap (·.urls) } := by
  have hl : ∀ l ∈ as.flatMap (·.lines), Docblock.Plain l ∧ l ≠ [] := by
    intro l hl
    obtain ⟨a, ha, hl⟩ := List.mem_flatMap.mp hl
    exact AnnotationBlock.plain_of_mem_lines (h a ha) l hl
  rw [Docblock.lines_print hl, readAction]
  simpa using Reading.foldl_read_annotations {} h

/-- Rules that look like delimiters and directives, and values with equals signs. -/
theorem readAction_print_lookalikes :
    let as : List AnnotationBlock :=
      [.acl ["@route(".toList, "* /** a".toList, "url=/b".toList, "**".toList],
      .route [] "/c?d=e".toList "*/ f".toList ["assert('g', '/')".toList] ["value=".toList]]
    (∀ a ∈ as, a.WellFormed) ∧ readAction (Docblock.lines (Docblock.print (as.flatMap (·.lines)))) =
      { block := .none
        action := { routes := as.flatMap (·.routes), acl := as.flatMap (·.rules) }
        urls := ["/c?d=e".toList] } :=
  ⟨by decide +kernel, readAction_print (by decide +kernel)⟩

end Directive

end AnnotatedRoutes
