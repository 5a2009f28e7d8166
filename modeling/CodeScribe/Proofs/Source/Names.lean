import CodeScribe.Proofs.Text.Pattern
import CodeScribe.Source.Facts

/-!
# Names that sources show

Readers of sources take names out of the first group of a pattern.  That group stands around one
character class, so the names are made of the characters of that class.

* `Facts.typeNames_madeOf` — names of classes and interfaces are words;
* `Facts.package_madeOf` — packages are words with points, or with backslashes in PHP;
* `Php.uses_madeOf` — names that a PHP source uses are words with backslashes.
-/

namespace CodeScribe

open Pattern Declaration Text

namespace Pattern

@[simp] theorem numbers_group (i : Nat) (p : Pattern) : (group i p).numbers = i :: p.numbers := rfl

@[simp] theorem body?_append (a b : Pattern) (i : Nat) :
    (a ++ b).body? i = if i ∈ b.numbers then b.body? i else a.body? i := rfl

@[simp] theorem body?_group (i j : Nat) (p : Pattern) :
    (group j p).body? i = if j = i then some p else p.body? i := rfl

end Pattern

namespace Language

/-- The patterns by which a language finds classes and interfaces. -/
def typePatterns : Language → List Pattern
  | java => [Java.classPattern, Java.interfacePattern]
  | csharp => [CSharp.classPattern, CSharp.interfacePattern]
  | vbnet => [VisualBasic.classPattern, VisualBasic.interfacePattern]
  | php => [Php.classPattern, Php.interfacePattern]
  | javascript => [JavaScript.classPattern]
  | typescript => [TypeScript.classPattern, TypeScript.interfacePattern]
  | fsharp | markup | config => []

def packagePattern? : Language → Option Pattern
  | java => some Java.packagePattern
  | csharp => some CSharp.namespacePattern
  | vbnet => some VisualBasic.namespacePattern
  | fsharp => some FSharp.namespacePattern
  | php => some Php.namespacePattern
  | javascript | typescript | markup | config => none

/-- The characters of packages. -/
def packageChar : Language → Char → Bool
  | php => Php.isPathChar
  | _ => isDottedChar

theorem body_typePatterns (language : Language) :
    ∀ p ∈ language.typePatterns, p.body? 1 = some name := by
  cases language <;>
    simp [typePatterns, Java.classPattern, Java.interfacePattern, CSharp.classPattern,
      CSharp.interfacePattern, CSharp.bases, VisualBasic.classPattern,
      VisualBasic.interfacePattern, VisualBasic.listAfter, VisualBasic.declared,
      VisualBasic.keyword, Php.classPattern, Php.interfacePattern, JavaScript.classPattern,
      TypeScript.classPattern, TypeScript.interfacePattern, Script.parent]

theorem body_packagePattern (language : Language) :
    ∀ p ∈ language.packagePattern?, p.body? 1 = some (span1 language.packageChar) := by
  cases language <;>
    simp [packagePattern?, packageChar, Java.packagePattern, CSharp.namespacePattern,
      VisualBasic.namespacePattern, FSharp.namespacePattern, Php.namespacePattern]

end Language

namespace Facts

/-- What can be read: texts, and settings files that hold none. -/
theorem of_readContent {language : Language} {options : ReadOptions} {content : Option Value}
    {facts : Facts} (h : readContent language options content = .ok facts) :
    (∃ code, content = some (.text code) ∧ facts = read language options code.toList) ∨
      language = .config ∧ facts = config ⟨"unknown", [], []⟩ := by
  unfold readContent at h
  split at h
  · cases h
  · rename_i code
    cases h
    exact .inl ⟨code, rfl, rfl⟩
  · split at h
    · rename_i hconfig
      cases h
      rw [Bool.and_eq_true, beq_iff_eq] at hconfig
      exact .inr ⟨hconfig.1, rfl⟩
    · cases h

theorem typeNames_eq (language : Language) (options : ReadOptions) (code : List Char) :
    (read language options code).classMethods.map (·.1) ++
        (read language options code).interfaceNames
      = language.typePatterns.flatMap (·.findGroup 1 code) := by
  cases language <;>
    simp [read, classMethods, interfaceNames, Language.typePatterns, findGroup, Java.read,
      Java.classesIn, Java.interfacesIn, CSharp.read, CSharp.classesIn, CSharp.interfacesIn,
      VisualBasic.read, VisualBasic.classesIn, VisualBasic.interfacesIn, Php.read, Php.classesIn,
      Php.interfacesIn, JavaScript.read, JavaScript.classesIn, TypeScript.read,
      TypeScript.classesIn, TypeScript.interfacesIn, Function.comp_def]

theorem package_eq (language : Language) (options : ReadOptions) (code : List Char) :
    (read language options code).package
      = ((language.packagePattern?.bind (·.find? code)).map (·.get 1)).getD "" := by
  cases language <;> rfl

theorem typeNames_madeOf (language : Language) (options : ReadOptions) (code : List Char) :
    ∀ n ∈ (read language options code).classMethods.map (·.1) ++
      (read language options code).interfaceNames, MadeOf isWord n := by
  intro n hn
  rw [typeNames_eq, List.mem_flatMap] at hn
  obtain ⟨p, hp, hn⟩ := hn
  obtain ⟨m, hm, rfl⟩ := List.mem_map.mp hn
  exact (findAll_sound hm).get_span1 (language.body_typePatterns p hp)

theorem package_madeOf (language : Language) (options : ReadOptions) (code : List Char) :
    (read language options code).package = "" ∨
      MadeOf language.packageChar (read language options code).package := by
  rw [package_eq]
  cases hm : language.packagePattern?.bind (·.find? code) with
  | none => exact .inl rfl
  | some m =>
    obtain ⟨p, hp, hm⟩ := Option.bind_eq_some_iff.mp hm
    exact .inr ((find?_sound hm).get_span1 (language.body_packagePattern p hp))

end Facts

theorem Php.uses_madeOf (options : ReadOptions) (code : List Char) :
    ∀ i ∈ (Php.read options code).uses, MadeOf Php.isPathChar i := by
  intro i hi
  have hbody : Php.usePattern.body? 1 = some (span1 Php.isPathChar) := by simp [Php.usePattern]
  rw [Php.read] at hi
  split at hi
  · obtain ⟨m, hm, rfl⟩ := List.mem_map.mp hi
    exact (findAll_sound hm).get_span1 hbody
  · cases hi

end CodeScribe
