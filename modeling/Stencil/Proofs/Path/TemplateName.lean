import Stencil.Proofs.Path.Below

/-!
# Names of template files

A template has the name of its file below the directory: the names that lead to the file, joined by
slashes, without the extension of the last one. Only the last dot of that name goes with the
extension. So the dot and the extension, put behind the name of the template, give the path of the
file back, and two files that have one extension never have one template name.

There is one exception. A file named `..ext` has the stem `.`, which is no component of a path; its
template is named `..` instead, as that of a file named `...ext` is.

## Main definitions

* `Stencil.Path.HasPlainStem`: the names of a file whose stem is not `.`.

## Main results

* `Stencil.Path.eq_append_of_splitExtension`: a file name is its stem, a dot and its extension.
* `Stencil.FileTree.templateName_append`: the path of a file from the name of its template.
* `Stencil.FileTree.eq_of_templateName_eq`: the name of a template determines its file.
-/

namespace Stencil

namespace Path

variable {name s extension : String}

/-- A file name is its stem, a dot and its extension. -/
theorem eq_append_of_splitExtension (h : splitExtension name = (s, some extension)) :
    name = s ++ "." ++ extension := by
  have hcut := List.takeWhile_append_dropWhile (p := (· ≠ '.')) (l := name.toList.reverse)
  have hdot := List.head?_dropWhile_not (· ≠ '.') name.toList.reverse
  simp only [splitExtension] at h
  split at h
  · cases h
  · cases h
  · rename_i dot stem hstem hdrop
    obtain ⟨rfl, hextension⟩ := Prod.mk.inj h
    rw [hdrop] at hcut hdot
    obtain rfl : dot = '.' := by simpa using hdot
    rw [← Option.some.inj hextension, ← String.toList_inj]
    simpa using congrArg List.reverse hcut.symm

/-- A file name without an extension is its stem. -/
theorem eq_of_splitExtension (h : splitExtension name = (s, none)) : name = s := by
  simp only [splitExtension] at h
  split at h
  · exact (Prod.mk.inj h).1
  · exact (Prod.mk.inj h).1
  · cases (Prod.mk.inj h).2

/-- A file name has a stem. -/
theorem splitExtension_fst_ne_empty (h : name ≠ "") : (splitExtension name).1 ≠ "" := by
  rw [splitExtension]
  split
  · exact h
  · exact h
  · rename_i dot stem hstem hdrop
    intro hempty
    exact hstem (by simpa using congrArg String.toList hempty)

/-- The stem of a file name is a part of it. -/
theorem mem_of_mem_splitExtension_fst {c : Char} (h : c ∈ (splitExtension name).1.toList) :
    c ∈ name.toList := by
  obtain ⟨s, extension?, hsplit⟩ : ∃ s extension?, splitExtension name = (s, extension?) :=
    ⟨_, _, rfl⟩
  rw [hsplit] at h
  cases extension? with
  | none =>
    rw [eq_of_splitExtension hsplit]
    exact h
  | some extension =>
    rw [eq_append_of_splitExtension hsplit]
    simp [h]

/-- The last component of a path keeps the stem of its file name. -/
theorem stem_normal (h : (splitExtension name).1 ≠ ".") :
    stem (.normal name) = (splitExtension name).1 := by
  rw [stem]
  split
  · rename_i extension hsplit
    rw [hsplit] at h
    exact absurd rfl h
  · rename_i s extension? _ hsplit
    rw [hsplit]

theorem stem_of_splitExtension (h : splitExtension name = (s, some extension)) (hs : s ≠ ".") :
    stem (.normal name) = s := by
  have hstem : (splitExtension name).1 = s := by rw [h]
  rw [stem_normal (by rwa [hstem]), hstem]

/-- The texts of components are kept, up to the extension of the last one. -/
theorem nameParts_append_singleton (front : List Component) (c : Component) :
    nameParts (front ++ [c]) = front.map Component.text ++ [stem c] := by
  induction front with
  | nil => rfl
  | cons c' front ih =>
    have hne : front ++ [c] ≠ [] := List.append_ne_nil_of_right_ne_nil front (List.cons_ne_nil c [])
    obtain ⟨d, ds, hds⟩ := List.exists_cons_of_ne_nil hne
    rw [hds] at ih
    rw [List.cons_append, hds, List.map_cons, List.cons_append, ← ih]
    rfl

/-- The texts of names are the names, up to the extension of the last one. -/
theorem nameParts_concat (front : List String) (name : String) :
    nameParts ((front ++ [name]).map .normal) = front ++ [stem (.normal name)] := by
  have htexts : (front.map Component.normal).map Component.text = front := by
    rw [List.map_map]
    exact List.map_id front
  rw [List.map_append, List.map_singleton, nameParts_append_singleton, htexts]

/-- The names lead to a file whose stem is not `.`. The stem `..` is let in: it is a component, and
is kept. -/
def HasPlainStem (names : List String) : Prop :=
  ∀ name ∈ names.getLast?, (splitExtension name).1 ≠ "."

instance (names : List String) : Decidable (HasPlainStem names) :=
  inferInstanceAs (Decidable (∀ name ∈ names.getLast?, _))

end Path

namespace FileTree

variable {names names' : List String} {extension : String}

/-- Names that end in a file with an extension, divided at the stem. -/
theorem exists_stem_of_lastExtension? (h : lastExtension? names = some extension) :
    ∃ front name stem, names = front ++ [name] ∧
      Path.splitExtension name = (stem, some extension) := by
  obtain ⟨name, hname, hextension⟩ := Option.bind_eq_some_iff.1 h
  obtain ⟨front, rfl⟩ := List.getLast?_eq_some_iff.1 hname
  exact ⟨front, name, (Path.splitExtension name).1, rfl, Prod.ext rfl hextension⟩

/-- The dot and the extension behind the name of a template give the path of its file. -/
theorem templateName_append (h : lastExtension? names = some extension)
    (hplain : Path.HasPlainStem names) :
    templateName names ++ "." ++ extension = String.intercalate "/" names := by
  obtain ⟨front, name, stem, rfl, hname⟩ := exists_stem_of_lastExtension? h
  have hstem : stem ≠ "." := by
    have hlast := hplain name (by simp)
    rwa [hname] at hlast
  rw [templateName, Path.nameParts_concat, Path.stem_of_splitExtension hname hstem,
    Path.eq_append_of_splitExtension hname]
  cases front with
  | nil => simp
  | cons n front =>
    rw [String.intercalate_append_of_ne_nil (by simp) (by simp),
      String.intercalate_append_of_ne_nil (by simp) (by simp)]
    simp [String.append_assoc]

/-- Among the files with one extension, the name of a template determines its file. -/
theorem eq_of_templateName_eq (hordinary : ∀ name ∈ names, Path.IsOrdinary name)
    (hordinary' : ∀ name ∈ names', Path.IsOrdinary name)
    (h : lastExtension? names = some extension) (h' : lastExtension? names' = some extension)
    (hplain : Path.HasPlainStem names) (hplain' : Path.HasPlainStem names')
    (heq : templateName names = templateName names') : names = names' := by
  have hpath : String.intercalate "/" names = String.intercalate "/" names' := by
    rw [← templateName_append h hplain, heq, templateName_append h' hplain']
  have hsplit {ns : List String} (hns : ∀ name ∈ ns, Path.IsOrdinary name)
      (hextension : lastExtension? ns = some extension) :
      Text.split '/' (String.intercalate "/" ns) = ns := by
    refine Text.split_intercalate ?_ fun name hname => (hns name hname).2.2.2
    rintro rfl
    cases hextension
  rw [← hsplit hordinary h, hpath, hsplit hordinary' h']

-- With the stem `.` it does not.
example : templateName ["..ext"] = ".." ∧ templateName ["...ext"] = ".." := by decide +kernel

end FileTree

end Stencil
