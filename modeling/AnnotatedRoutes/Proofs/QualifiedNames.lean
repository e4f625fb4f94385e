import AnnotatedRoutes.Proofs.DeclarationMasking

namespace AnnotatedRoutes.Source

theorem classForm_first? (t : Text) :
    classForm.first? t = (firstClass? t).map ClassDeclaration.site :=
  atLineStart?_map ClassDeclaration.site 0 true t

/-- The first namespace declaration, through its closing sign. -/
def firstNamespace? (source : Text) : Option Declaration := namespaceForm.first? source

theorem namespaceName_eq (separator source : Text) :
    namespaceName separator source =
      Text.trimEndOf (· ∈ separator)
        (Text.trimStartOf (· ∈ separator) (((firstNamespace? source).map (·.name)).getD [])) := by
  have hread : (fun _ => namespaceAt?) =
      fun offset line => (namespaceDeclarationAt? offset line).map (·.name) :=
    funext fun offset => funext fun line => namespaceAt?_eq offset line
  rw [namespaceName, hread, atLineStart?_map]
  rfl

/-- The class that is scanned where a class declaration stands. -/
def declaredClass (constructorName qualifiedName source : Text) (d : ClassDeclaration) :
    HandlerClass :=
  let body := classBody (masked source) d.stop
  { qualifiedName
    comment := precedingDocblock source d.start (Span.scan source)
    methods := publicMethods constructorName (slice source body.1 body.2) }

theorem scanClass_eq (constructorName qualifiedName source : Text) :
    scanClass constructorName qualifiedName source =
      (firstClass? (masked source)).map (declaredClass constructorName qualifiedName source) := rfl

/-- The first class and the first namespace are declared outside comments and string literals, with
no such thing before them on their lines. -/
structure Undisturbed (source : Text) : Prop where
  class_bare : ∀ d ∈ firstClass? source, Bare source d.start d.stop
  class_alone : ∀ d ∈ firstClass? (masked source), Alone source d.start d.stop
  namespace_bare : ∀ d ∈ firstNamespace? source, Bare source d.start d.stop
  namespace_alone : ∀ d ∈ firstNamespace? (masked source), Alone source d.start d.stop

theorem undisturbed_iff_forall (source : Text) :
    Undisturbed source ↔
      ((∀ d ∈ firstClass? source, Bare source d.start d.stop) ∧
        ∀ d ∈ firstClass? (masked source), Alone source d.start d.stop) ∧
      (∀ d ∈ firstNamespace? source, Bare source d.start d.stop) ∧
        ∀ d ∈ firstNamespace? (masked source), Alone source d.start d.stop :=
  ⟨fun h => ⟨⟨h.1, h.2⟩, h.3, h.4⟩, fun ⟨⟨h1, h2⟩, h3, h4⟩ => ⟨h1, h2, h3, h4⟩⟩

instance (source : Text) : Decidable (Undisturbed source) :=
  decidable_of_iff' _ (undisturbed_iff_forall source)

theorem firstClass?_masked_iff (source : Text) :
    firstClass? source = firstClass? (masked source) ↔
      (∀ d ∈ firstClass? source, Bare source d.start d.stop) ∧
        ∀ d ∈ firstClass? (masked source), Alone source d.start d.stop := by
  have h := classForm.first?_masked_iff source
  rw [classForm_first?, classForm_first?,
    (Option.map_injective ClassDeclaration.site_injective).eq_iff] at h
  simpa [ClassDeclaration.site] using h

theorem undisturbed_iff (source : Text) :
    Undisturbed source ↔
      firstClass? source = firstClass? (masked source) ∧
        firstNamespace? source = firstNamespace? (masked source) := by
  rw [undisturbed_iff_forall, firstClass?_masked_iff]
  exact and_congr_right fun _ => (namespaceForm.first?_masked_iff source).symm

theorem qualifiedName_congr {source source' : Text} (hc : firstClass? source = firstClass? source')
    (hn : firstNamespace? source = firstNamespace? source') (separator : Text) :
    qualifiedName separator source = qualifiedName separator source' := by
  rw [qualifiedName, qualifiedName, qualifiedNameWith, qualifiedNameWith, hc, namespaceName_eq,
    namespaceName_eq, hn]

/-- The name that is read off a source is that of the scanned class if the source is undisturbed;
in any other source another class or namespace is found than in its masked text. -/
theorem qualifiedName_masked (source : Text) :
    (Undisturbed source ↔
      firstClass? source = firstClass? (masked source) ∧
        firstNamespace? source = firstNamespace? (masked source)) ∧
      (Undisturbed source → ∀ separator constructorName name : Text,
        qualifiedName separator source = qualifiedName separator (masked source) ∧
          (qualifiedName separator source = none ↔
            scanClass constructorName name source = none) ∧
          scanClass constructorName name source =
            (firstClass? source).map (declaredClass constructorName name source)) := by
  refine ⟨undisturbed_iff source, fun h separator constructorName name => ?_⟩
  obtain ⟨hc, hn⟩ := (undisturbed_iff source).mp h
  have hs : scanClass constructorName name source =
      (firstClass? source).map (declaredClass constructorName name source) := by
    rw [scanClass_eq, hc]
  refine ⟨qualifiedName_congr hc hn separator, ?_, hs⟩
  rw [hs, qualifiedName, qualifiedNameWith, Option.map_eq_none_iff, Option.map_eq_none_iff]

/-- A namespace and a class behind comments that speak of others. -/
theorem qualifiedName_masked_docblock :
    let source :=
      "<?php // class Old\nnamespace App;\n/**\n * class Fake\n */\nclass Home \x7b\x7d\n".toList
    Undisturbed source ∧
      qualifiedName "\\".toList source = qualifiedName "\\".toList (masked source) ∧
      qualifiedName "\\".toList source = some "App\\Home".toList := by
  intro source
  have h : Undisturbed source := by decide +kernel
  exact ⟨h, ((qualifiedName_masked source).2 h _ [] []).1, by decide +kernel⟩

/-- A class that only a comment speaks of is taken for the one that the source declares. -/
theorem qualifiedName_of_comment :
    let source := "<?php\n/*\nclass Fake\n*/\nclass Real \x7b\x7d\n".toList
    qualifiedName "\\".toList source ≠ qualifiedName "\\".toList (masked source) := by
  decide +kernel

end AnnotatedRoutes.Source
