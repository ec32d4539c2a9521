import Stencil.Proofs.Path.TemplateName
import Mathlib.Data.List.TakeWhile

/-!
# Files of a pattern

A pattern below a root stands for files. Components without wildcards stand for themselves, and a
component with wildcards for a name. The templates of the files are named below the root continued
by the literal part of the pattern. So the components of the file up to there are those of the
pattern, and the name is made from what stands for the first component with a wildcard and all that
follow it.

If the literal part is a directory, then the name is the one that a load of this directory gives
the file, however the directory is spelled. But the literal part of a pattern without wildcards is
the path of the file itself, and nothing is left for the name of its template, which is empty.

## Main definitions

* `Stencil.Path.Matches`: the paths that a pattern stands for, by components.
* `Stencil.Path.patternBase`: the path below which the files of a pattern are named.

## Main results

* `Stencil.Path.components_join_eq_append`: a pattern below a root, divided at its first wildcard.
* `Stencil.Path.templateName?_patternBase_of_matches`: the name of a file that a pattern stands for.
* `Stencil.Path.templateName?_patternBase_of_directory`: a directory continued by wildcards names
  files as the directory does.
-/

namespace Stencil.Path

/-! ### What a pattern stands for -/

/-- The components of a path are what those of a pattern stand for. -/
inductive Matches : List Component → List Component → Prop
  | nil : Matches [] []
  /-- A component without wildcards stands for itself. -/
  | literal {c : Component} {ps cs : List Component} (hc : c.isLiteral = true)
      (h : Matches ps cs) : Matches (c :: ps) (c :: cs)
  /-- One with wildcards stands for a name. Which names it admits is left open. -/
  | wildcard {c : Component} {ps cs : List Component} {name : String} (hc : c.isLiteral = false)
      (hname : IsOrdinary name) (h : Matches ps cs) : Matches (c :: ps) (.normal name :: cs)
  /-- The component `**` stands for any number of names. -/
  | depth {ps cs : List Component} {names : List String} (hnames : ∀ name ∈ names, IsOrdinary name)
      (h : Matches ps cs) : Matches (.normal "**" :: ps) (names.map .normal ++ cs)

/-- The path below which the files of a pattern are named. -/
def patternBase (root pattern : String) : String :=
  join root (literalPart pattern)

variable {root pattern path directory tail file base : String} {front ps cs rest : List Component}

/-- What a pattern stands for starts with the components before the first one with a wildcard. -/
theorem Matches.exists_eq_append (h : Matches (front ++ ps) cs)
    (hfront : ∀ c ∈ front, c.isLiteral = true) : ∃ rest, cs = front ++ rest ∧ Matches ps rest := by
  induction front generalizing cs with
  | nil => exact ⟨cs, rfl, h⟩
  | cons c front ih =>
    obtain ⟨hc, hfront⟩ := List.forall_mem_cons.1 hfront
    rw [List.cons_append] at h
    cases h with
    | literal _ h =>
      obtain ⟨rest, rfl, hrest⟩ := ih h hfront
      exact ⟨rest, rfl, hrest⟩
    | wildcard hwild _ _ =>
      rw [hc] at hwild
      cases hwild
    | depth _ _ =>
      have hwild : Component.isLiteral (.normal "**") = false := by decide +kernel
      rw [hc] at hwild
      cases hwild

/-- Only `**` can stand for nothing. -/
theorem Matches.eq_depth (h : Matches ps []) : ∀ c ∈ ps, c = .normal "**" := by
  generalize hcs : ([] : List Component) = cs at h
  induction h with
  | nil => simp
  | literal => cases hcs
  | wildcard => cases hcs
  | depth _ _ ih =>
    obtain ⟨-, hcs⟩ := List.append_eq_nil_iff.1 hcs.symm
    exact List.forall_mem_cons.2 ⟨rfl, ih hcs.symm⟩

/-! ### The literal part below a root -/

/-- What a path starts with has no wildcards. -/
theorem isInner_of_isLiteral_eq_false {c : Component} (h : c.isLiteral = false) :
    c.isInner = true := by
  cases c with
  | root => exact absurd h (by decide +kernel)
  | current => exact absurd h (by decide +kernel)
  | parent => rfl
  | normal name => rfl

/-- Behind the literal part of a pattern no component is one for a beginning. -/
theorem isInner_of_mem_dropWhile {c : Component}
    (h : c ∈ (components pattern).dropWhile Component.isLiteral) : c.isInner = true := by
  cases hcs : components pattern with
  | nil =>
    rw [hcs] at h
    cases h
  | cons d ds =>
    have htail : ∀ c ∈ ds, c.isInner = true := by
      intro c hc
      have hmem : c ∈ (components pattern).tail := by
        rw [hcs]
        exact hc
      exact isInner_of_mem_tail hmem
    rw [hcs, List.dropWhile_cons] at h
    split at h
    · exact htail c ((List.dropWhile_suffix _).subset h)
    · rename_i hd
      rcases List.mem_cons.1 h with rfl | hc
      · exact isInner_of_isLiteral_eq_false (Bool.not_eq_true _ ▸ hd)
      · exact htail c hc

theorem isAbsolute_literalPart (h : isAbsolute pattern = false) :
    isAbsolute (literalPart pattern) = false := by
  rw [← Bool.not_eq_true, isAbsolute_iff_head?] at h ⊢
  rw [components_literalPart]
  intro hhead
  obtain ⟨cs, hcs⟩ := List.head?_eq_some_iff.1 hhead
  refine h ?_
  rw [← List.takeWhile_append_dropWhile (p := Component.isLiteral) (l := components pattern), hcs]
  rfl

/-- A pattern below a root has the components of the path below which its files are named, and
behind them those from its first wildcard on. -/
theorem components_join_eq_append (hpattern : isAbsolute pattern = false) (root : String) :
    components (join root pattern) =
      components (patternBase root pattern) ++
        (components pattern).dropWhile Component.isLiteral := by
  have hdivide := List.takeWhile_append_dropWhile (p := Component.isLiteral)
    (l := components pattern)
  have hliteral := isAbsolute_literalPart hpattern
  have hrest : ((components pattern).dropWhile Component.isLiteral).filter Component.isInner =
      (components pattern).dropWhile Component.isLiteral :=
    List.filter_eq_self.2 fun _ hc => isInner_of_mem_dropWhile hc
  rw [patternBase]
  by_cases hroot : root = ""
  · rw [hroot, join_empty, join_empty, components_literalPart, hdivide]
  · rw [components_join_of_ne_empty hroot hpattern, components_join_of_ne_empty hroot hliteral,
      inner, inner, components_literalPart, List.append_assoc, ← hrest, ← List.filter_append,
      hdivide]

/-! ### Names of files -/

theorem templateName?_eq_some_iff {name : String} :
    templateName? base path = some name ↔
      ∃ rest, components path = components base ++ rest ∧
        String.intercalate "/" (nameParts rest) = name := by
  rw [templateName?, Option.map_eq_some_iff]
  simp only [below?_eq_some_iff]

/-- The name of a file ends in its stem. -/
theorem getLast?_split_nameParts (h : IsOrdinary file) (hstem : (splitExtension file).1 ≠ ".")
    (front : List Component) :
    (Text.split '/' (String.intercalate "/" (nameParts (front ++ [.normal file])))).getLast? =
      some (splitExtension file).1 := by
  have hslash : '/' ∉ (splitExtension file).1.toList := fun hmem =>
    h.2.2.2 (mem_of_mem_splitExtension_fst hmem)
  rw [nameParts_append_singleton, stem_normal hstem]
  cases front with
  | nil =>
    rw [List.map_nil, List.nil_append, String.intercalate_singleton, Text.split_of_notMem hslash]
    rfl
  | cons c front =>
    rw [String.intercalate_append_of_ne_nil (by simp) (by simp), String.intercalate_singleton]
    have hsplit := Text.split_append_sep hslash
      (String.intercalate "/" ((c :: front).map Component.text))
    exact (congrArg List.getLast? hsplit).trans List.getLast?_concat

/-- So it is empty only for the path below which the file is named. -/
theorem intercalate_nameParts_eq_empty_iff (h : IsOrdinary file)
    (hstem : (splitExtension file).1 ≠ ".")
    (hrest : rest = [] ∨ ∃ front, rest = front ++ [.normal file]) :
    String.intercalate "/" (nameParts rest) = "" ↔ rest = [] := by
  rcases hrest with rfl | ⟨front, rfl⟩
  · exact iff_of_true rfl rfl
  · refine iff_of_false (fun hempty => ?_) (by simp)
    have hlast := getLast?_split_nameParts h hstem front
    have hsplit : Text.split '/' "" = [""] := by decide +kernel
    rw [hempty, hsplit] at hlast
    exact splitExtension_fst_ne_empty h.1 (Option.some.inj hlast).symm

/-- If the root has no wildcards, then a path that a pattern stands for lies below the path below
which the files of the pattern are named. -/
theorem Matches.exists_below (hpattern : isAbsolute pattern = false)
    (h : Matches (components (join root pattern)) (components path))
    (hroot : ∀ c ∈ components root, c.isLiteral = true) :
    ∃ rest, components path = components (patternBase root pattern) ++ rest ∧
      Matches ((components pattern).dropWhile Component.isLiteral) rest := by
  have hbase : ∀ c ∈ components (patternBase root pattern), c.isLiteral = true := by
    intro c hc
    rcases mem_components_join hc with hc | hc
    · exact hroot c hc
    · rw [components_literalPart] at hc
      exact List.mem_takeWhile_imp hc
  rw [components_join_eq_append hpattern] at h
  exact h.exists_eq_append hbase

/-- **The names of the files of a pattern.** A relative pattern below a root stands for a path to a
file whose stem is not `.`. If the root has no wildcards, then the file has a name. This name is
empty if the pattern has no wildcards, but not if anything besides `**` follows the literal part.
Whatever the root is, a name that the file has is empty only if the path is the one below which the
files of the pattern are named; otherwise its last segment is the stem of the file. -/
theorem templateName?_patternBase_of_matches (hpattern : isAbsolute pattern = false)
    (hmatches : Matches (components (join root pattern)) (components path))
    (hfile : (components path).getLast? = some (.normal file))
    (hstem : (splitExtension file).1 ≠ ".") :
    ((∀ c ∈ components root, c.isLiteral = true) →
      (templateName? (patternBase root pattern) path).isSome = true ∧
      ((∀ c ∈ components pattern, c.isLiteral = true) →
        templateName? (patternBase root pattern) path = some "") ∧
      ((∃ c ∈ (components pattern).dropWhile Component.isLiteral, c ≠ .normal "**") →
        templateName? (patternBase root pattern) path ≠ some "")) ∧
    ∀ name, templateName? (patternBase root pattern) path = some name →
      (name = "" ↔ components path = components (patternBase root pattern)) ∧
      (name ≠ "" → (Text.split '/' name).getLast? = some (splitExtension file).1) := by
  have hordinary : IsOrdinary file := isOrdinary_of_mem_components (List.mem_of_getLast? hfile)
  have hname : ∀ rest, components path = components (patternBase root pattern) ++ rest →
      rest = [] ∨ ∃ front, rest = front ++ [.normal file] := by
    intro rest hrest
    rw [hrest] at hfile
    rcases List.eq_nil_or_concat rest with rfl | ⟨front, c, rfl⟩
    · exact .inl rfl
    · rw [List.concat_eq_append, ← List.append_assoc, List.getLast?_concat] at hfile
      exact .inr ⟨front, by rw [Option.some.inj hfile, List.concat_eq_append]⟩
  constructor
  · intro hroot
    obtain ⟨rest, hrest, hbelow⟩ := hmatches.exists_below hpattern hroot
    have hsome := templateName?_eq_some_iff.2 ⟨rest, hrest, rfl⟩
    rw [hsome]
    refine ⟨rfl, fun hliteral => ?_, ?_⟩
    · rw [List.dropWhile_eq_nil_iff.2 hliteral] at hbelow
      cases hbelow
      rfl
    · rintro ⟨c, hc, hdepth⟩ hempty
      obtain rfl := (intercalate_nameParts_eq_empty_iff hordinary hstem (hname rest hrest)).1
        (Option.some.inj hempty)
      exact hdepth (hbelow.eq_depth c hc)
  · intro name hsome
    obtain ⟨rest, hrest, rfl⟩ := templateName?_eq_some_iff.1 hsome
    have hempty := intercalate_nameParts_eq_empty_iff hordinary hstem (hname rest hrest)
    refine ⟨?_, fun hne => ?_⟩
    · rw [hempty, hrest, List.append_right_eq_self]
    · obtain ⟨front, rfl⟩ := (hname rest hrest).resolve_left (hempty.not.1 hne)
      exact getLast?_split_nameParts hordinary hstem front

theorem templateName?_patternBase_of_matches_views :
    isAbsolute "./views/**/[ab]*.html" = false ∧
      Matches (components (join "/app" "./views/**/[ab]*.html"))
        (components "/app/views/posts/a.b.html") ∧
      (components "/app/views/posts/a.b.html").getLast? = some (.normal "a.b.html") ∧
      (splitExtension "a.b.html").1 ≠ "." ∧
      (∀ c ∈ components "/app", c.isLiteral = true) ∧
      (templateName? (patternBase "/app" "./views/**/[ab]*.html")
        "/app/views/posts/a.b.html").isSome = true ∧
      templateName? (patternBase "/app" "./views/**/[ab]*.html") "/app/views/posts/a.b.html" ≠
        some "" := by
  have hpattern : components (join "/app" "./views/**/[ab]*.html") =
      [.root, .normal "app", .normal "views", .normal "**", .normal "[ab]*.html"] := by
    decide +kernel
  have hpath : components "/app/views/posts/a.b.html" =
      [.root, .normal "app", .normal "views", .normal "posts", .normal "a.b.html"] := by
    decide +kernel
  have hposts : ∀ name ∈ ["posts"], IsOrdinary name := by decide +kernel
  have hmatches : Matches (components (join "/app" "./views/**/[ab]*.html"))
      (components "/app/views/posts/a.b.html") := by
    rw [hpattern, hpath]
    exact .literal (by decide +kernel) (.literal (by decide +kernel)
      (.literal (by decide +kernel)
        (.depth hposts (.wildcard (by decide +kernel) (by decide +kernel) .nil))))
  have hrelative : isAbsolute "./views/**/[ab]*.html" = false := by decide +kernel
  have hfile : (components "/app/views/posts/a.b.html").getLast? = some (.normal "a.b.html") := by
    decide +kernel
  have hstem : (splitExtension "a.b.html").1 ≠ "." := by decide +kernel
  have hroot : ∀ c ∈ components "/app", c.isLiteral = true := by decide +kernel
  have hwild : ∃ c ∈ (components "./views/**/[ab]*.html").dropWhile Component.isLiteral,
      c ≠ .normal "**" := ⟨.normal "[ab]*.html", by decide +kernel, by decide +kernel⟩
  have hname := (templateName?_patternBase_of_matches hrelative hmatches hfile hstem).1 hroot
  exact ⟨hrelative, hmatches, hfile, hstem, hroot, hname.1, hname.2.2 hwild⟩

/-- A pattern without wildcards stands for its own path, and the template of that file gets the
empty name. -/
theorem templateName?_patternBase_of_file :
    Matches (components (join "/app" "views/index.html")) (components "/app/views/index.html") ∧
      templateName? (patternBase "/app" "views/index.html") "/app/views/index.html" = some "" := by
  have hpattern : components (join "/app" "views/index.html") =
      [.root, .normal "app", .normal "views", .normal "index.html"] := by
    decide +kernel
  have hpath : components "/app/views/index.html" =
      [.root, .normal "app", .normal "views", .normal "index.html"] := by
    decide +kernel
  refine ⟨?_, by decide +kernel⟩
  rw [hpattern, hpath]
  exact .literal (by decide +kernel) (.literal (by decide +kernel)
    (.literal (by decide +kernel) (.literal (by decide +kernel) .nil)))

/-! ### A directory continued by wildcards -/

/-- A directory with a tail that starts with a wildcard, divided there. The directory may be spelled
in any way, and be continued by a slash or joined. -/
theorem components_of_directory (hdirectory : directory ≠ "")
    (htail : ∃ c, (components tail).head? = some c ∧ c.isLiteral = false)
    (hpattern : pattern = directory ++ "/" ++ tail ∨ pattern = join directory tail) :
    components pattern = components directory ++ inner tail := by
  obtain ⟨c, hhead, hwild⟩ := htail
  rcases hpattern with rfl | rfl
  · exact components_append_slash hdirectory tail
  · refine components_join_of_ne_empty hdirectory ?_
    rw [← Bool.not_eq_true, isAbsolute_iff_head?, hhead]
    rintro ⟨⟩
    cases isInner_of_isLiteral_eq_false hwild

/-- So its literal part is the directory. -/
theorem components_literalPart_of_directory (hdirectory : directory ≠ "")
    (hliteral : ∀ c ∈ components directory, c.isLiteral = true)
    (htail : ∃ c, (components tail).head? = some c ∧ c.isLiteral = false)
    (hpattern : pattern = directory ++ "/" ++ tail ∨ pattern = join directory tail) :
    components (literalPart pattern) = components directory := by
  rw [components_literalPart, components_of_directory hdirectory htail hpattern]
  obtain ⟨c, hhead, hwild⟩ := htail
  obtain ⟨cs, hcs⟩ := List.head?_eq_some_iff.1 hhead
  have hc := isInner_of_isLiteral_eq_false hwild
  have hstop : (inner tail).takeWhile Component.isLiteral = [] := by
    rw [inner, hcs, List.filter_cons_of_pos hc, List.takeWhile_cons_of_neg (by simp [hwild])]
  rw [List.takeWhile_append_of_pos hliteral, hstop, List.append_nil]

/-- What is named below a path counts by its components alone. -/
theorem templateName?_congr {base' : String} (h : components base = components base')
    (path : String) : templateName? base path = templateName? base' path := by
  rw [templateName?, templateName?, below?, below?, h]

/-- **Embedding and loading name files alike.** A pattern is a directory without wildcards, spelled
in any way, continued by a tail that starts with a wildcard. Then a file below the directory gets
one name, whether it is named as a file of the pattern or as one of the directory. The name is that
of its own path. -/
theorem templateName?_patternBase_of_directory (hdirectory : directory ≠ "")
    (hliteral : ∀ c ∈ components directory, c.isLiteral = true)
    (htail : ∃ c, (components tail).head? = some c ∧ c.isLiteral = false)
    (hpattern : pattern = directory ++ "/" ++ tail ∨ pattern = join directory tail)
    (hpath : ∀ c ∈ components path, ∃ name, c = .normal name) (root : String) :
    templateName? (patternBase root pattern) (join (join root directory) path) =
        templateName? (join root directory) (join (join root directory) path) ∧
      templateName? (join root directory) (join (join root directory) path) =
        some (String.intercalate "/" (nameParts (components path))) := by
  have hbase : components (patternBase root pattern) = components (join root directory) :=
    components_join_congr (components_literalPart_of_directory hdirectory hliteral htail hpattern)
      root
  have hinner : ∀ c ∈ components path, c.isInner = true := by
    intro c hc
    obtain ⟨name, rfl⟩ := hpath c hc
    rfl
  exact ⟨templateName?_congr hbase _, templateName?_eq_some_iff.2
    ⟨components path, components_join_of_isInner hinner (join root directory), rfl⟩⟩

theorem templateName?_patternBase_of_directory_views :
    ".//views/../t/" ≠ "" ∧ (∀ c ∈ components ".//views/../t/", c.isLiteral = true) ∧
      ((components "**/*.html").head? = some (.normal "**") ∧
        Component.isLiteral (.normal "**") = false) ∧
      (∀ c ∈ components "posts//a.b.html", ∃ name, c = .normal name) ∧
      templateName? (patternBase "/app" (".//views/../t/" ++ "/" ++ "**/*.html"))
          (join (join "/app" ".//views/../t/") "posts//a.b.html") =
        templateName? (join "/app" ".//views/../t/")
          (join (join "/app" ".//views/../t/") "posts//a.b.html") ∧
      templateName? (join "/app" ".//views/../t/")
          (join (join "/app" ".//views/../t/") "posts//a.b.html") = some "posts/a.b" := by
  have hdirectory : ".//views/../t/" ≠ "" := by decide +kernel
  have hliteral : ∀ c ∈ components ".//views/../t/", c.isLiteral = true := by decide +kernel
  have htail : (components "**/*.html").head? = some (.normal "**") ∧
      Component.isLiteral (.normal "**") = false := by decide +kernel
  have hcomponents : components "posts//a.b.html" = [.normal "posts", .normal "a.b.html"] := by
    decide +kernel
  have hpath : ∀ c ∈ components "posts//a.b.html", ∃ name, c = .normal name := by
    rw [hcomponents]
    simp
  obtain ⟨hsame, hname⟩ := templateName?_patternBase_of_directory hdirectory hliteral
    ⟨.normal "**", htail⟩ (.inl rfl) hpath "/app"
  have hparts : String.intercalate "/" (nameParts (components "posts//a.b.html")) =
      "posts/a.b" := by
    decide +kernel
  exact ⟨hdirectory, hliteral, htail, hpath, hsame, hparts ▸ hname⟩

end Stencil.Path
