import AnnotatedRoutes.Proofs.DocblockEnd
import AnnotatedRoutes.Proofs.MethodReading
import AnnotatedRoutes.Proofs.ModelMeaning
import AnnotatedRoutes.Proofs.QualifiedNames

namespace AnnotatedRoutes

open Docblock (Unclosed ClosesAtEnd)

structure HandlerMethod.WellClosed (d : HandlerMethod) : Prop where
  name : Unclosed d.name
  comment : ClosesAtEnd d.comment

structure HandlerClass.WellClosed (c : HandlerClass) : Prop where
  qualifiedName : Unclosed c.qualifiedName
  comment : ClosesAtEnd c.comment
  methods : ∀ d ∈ c.methods, d.WellClosed

namespace Source

theorem star_not_mem_of_word {first all : Char → Bool} {t : Text} (h : Word first all t)
    (hs : all '*' = false) : '*' ∉ t := by
  intro hm
  rw [h.all '*' hm] at hs
  cases hs

theorem star_not_mem_namespaceName (separator source : Text) :
    '*' ∉ namespaceName separator source := by
  have found : '*' ∉ ((firstNamespace? source).map (·.name)).getD [] := by
    cases hd : firstNamespace? source with
    | none => exact List.not_mem_nil
    | some d =>
      have hhead : NamespaceHead d.name _ := (DeclarationForm.of_first?_eq_some hd).1.head
      exact star_not_mem_of_word hhead.path (by decide)
  rw [namespaceName_eq]
  intro hm
  have hm := (Text.isPrefix_trimEndOf _ _).subset hm
  exact found ((Text.isSuffix_trimStartOf _ _).subset hm)

/-- A name has a star only if it is written with one between its parts. -/
theorem star_not_mem_qualifiedName {separator source name : Text} (hs : '*' ∉ separator)
    (h : qualifiedName separator source = some name) : '*' ∉ name := by
  obtain ⟨d, hd, hname⟩ := Option.map_eq_some_iff.mp h
  obtain ⟨i, -, hd, -⟩ := exists_of_atLineStart? hd
  obtain ⟨_, _, _, -, -, hhead, -⟩ := exists_of_classAt? hd
  have hclass : '*' ∉ d.name := star_not_mem_of_word hhead.identifier (by decide)
  have hspace := star_not_mem_namespaceName separator source
  subst hname
  split
  next => exact hclass
  next => simpa [hs, hclass] using hspace

theorem wellClosed_of_mem_publicMethods {constructorName body : Text} {d : HandlerMethod}
    (h : d ∈ publicMethods constructorName body) : d.WellClosed := by
  obtain ⟨m, hm, rfl⟩ := List.mem_map.mp h
  obtain ⟨_, _, -, -, -, hm⟩ := of_mem_methodsFrom (List.mem_filter.mp hm).1
  obtain ⟨_, _, _, -, -, hhead, -⟩ := exists_of_methodAt? hm
  have hname : '*' ∉ m.name := star_not_mem_of_word hhead.identifier (by decide)
  exact ⟨Docblock.unclosed_of_not_mem hname, closesAtEnd_precedingDocblock body m.start⟩

theorem wellClosed_of_scanClass {constructorName name source : Text} {c : HandlerClass}
    (hn : Unclosed name) (h : scanClass constructorName name source = some c) : c.WellClosed := by
  obtain ⟨d, -, rfl⟩ := Option.map_eq_some_iff.mp h
  exact ⟨hn, closesAtEnd_precedingDocblock source d.start,
    fun _ hm => wellClosed_of_mem_publicMethods hm⟩

end Source

namespace Reflector

/-- A reflector that scans sources, and what it has found in them. -/
def WellClosed : Reflector → Prop
  | .scanning _ indexed => ∀ entry ∈ indexed.entries, entry.2.WellClosed
  | _ => False

theorem wellClosed_fresh (constructorName : Text) : (fresh constructorName).WellClosed :=
  List.forall_mem_nil _

variable {r : Reflector} {name : Text}

theorem WellClosed.index (h : r.WellClosed) (hn : Unclosed name) (source : Text) :
    (r.index name source).1.WellClosed := by
  cases r with
  | scanning constructorName indexed =>
    unfold Reflector.index
    dsimp only
    split
    next => exact h
    next c hc =>
      rintro ⟨key, value⟩ he
      rw [← Keyed.get?_eq_some_iff, Keyed.get?_put] at he
      split at he
      · cases he
        exact Source.wellClosed_of_scanClass hn hc
      · exact h _ (Keyed.get?_eq_some_iff.mp he)
  | fixed classes => exact h
  | silent => exact h

theorem WellClosed.exists_answers (h : r.WellClosed) (name : Text) :
    ∃ comment methods, r.classComment name = some comment ∧ r.publicMethods name = some methods ∧
      ClosesAtEnd comment ∧ ∀ d ∈ methods, d.WellClosed := by
  cases r with
  | scanning constructorName indexed =>
    refine ⟨_, _, rfl, rfl, ?_⟩
    cases hc : indexed.get? name with
    | none => exact ⟨Docblock.closesAtEnd_nil, List.forall_mem_nil _⟩
    | some c =>
      have hw := h _ (Keyed.get?_eq_some_iff.mp hc)
      exact ⟨hw.comment, hw.methods⟩
  | fixed classes => exact h.elim
  | silent => exact h.elim

end Reflector

namespace Builder

/-- The builder after some sources, each with its label. -/
def addSources (b : Builder) (namespaceSeparator : Text) (sources : List (Text × Text)) :
    Except Unanswered Builder :=
  sources.foldlM (fun b source =>
    (b.addSource namespaceSeparator source.1 source.2).map (·.builder)) b

variable {b : Builder} {separator : Text}

theorem exists_addSource (hs : '*' ∉ separator) (h : b.reflector.WellClosed) (label source : Text) :
    ∃ step classes, b.addSource separator label source = .ok step ∧
      step.builder.reflector.WellClosed ∧ (∀ c ∈ classes, c.WellClosed) ∧
      step.builder.model = b.model.addClasses classes := by
  cases hq : Source.qualifiedName separator source with
  | none => exact ⟨_, [], by rw [addSource, hq], h, List.forall_mem_nil _, rfl⟩
  | some name =>
    have hn : Unclosed name :=
      Docblock.unclosed_of_not_mem (Source.star_not_mem_qualifiedName hs hq)
    have hr := h.index hn source
    obtain ⟨comment, methods, hc, hm, hcomment, hmethods⟩ := hr.exists_answers name
    have hadd : b.addSource separator label source =
        .ok (addClass { b with reflector := (b.reflector.index name source).1 }
          ⟨name, comment, methods⟩) := by
      rw [addSource, hq]
      simp only [hc, hm]
    exact ⟨_, _, hadd, hr, List.forall_mem_singleton.mpr ⟨hn, hcomment, hmethods⟩, rfl⟩

/-- Sources that a fresh scan is shown are always read, and give well-closed classes. -/
theorem exists_addSources (hs : '*' ∉ separator) (h : b.reflector.WellClosed)
    (sources : List (Text × Text)) :
    ∃ b' classes, b.addSources separator sources = .ok b' ∧ b'.reflector.WellClosed ∧
      (∀ c ∈ classes, c.WellClosed) ∧ b'.model = b.model.addClasses classes := by
  induction sources generalizing b with
  | nil => exact ⟨b, [], rfl, h, List.forall_mem_nil _, rfl⟩
  | cons source sources ih =>
    obtain ⟨step, classes, hstep, hr, hclasses, hmodel⟩ :=
      exists_addSource hs h source.1 source.2
    obtain ⟨b', classes', hb', hr', hclasses', hmodel'⟩ := ih hr
    refine ⟨b', classes ++ classes', ?_, hr', List.forall_mem_append.mpr ⟨hclasses, hclasses'⟩, ?_⟩
    · rw [addSources, List.foldlM_cons, hstep]
      exact hb'
    · rw [hmodel', hmodel, RoutingModel.addClasses, RoutingModel.addClasses,
        RoutingModel.addClasses, List.foldl_append]

end Builder

end AnnotatedRoutes
