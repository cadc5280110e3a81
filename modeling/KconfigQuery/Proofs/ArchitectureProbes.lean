import KconfigQuery.Proofs.ArchitectureSearch
import KconfigQuery.Proofs.NormalPaths

/-! # Where the search for an architecture looks

For each entry of the directory `arch` the search looks for a file `Kconfig` in two places: in that
directory, and behind the link `source`.  However the kernel directory is spelt, both places are
found by adding names to what was listed and to what was tested for being a link.  So neither lies
outside, no two entries have a place in common, and neither do the two families of places.

* `kconfig_eq_inside`, `kconfig_sourceLink`   the two places of an entry
* `kconfig_inj`                               different entries have different places
* `kconfig_ne_kconfig_sourceLink`             no place belongs to both families
* `list_mem_architecture_iff`                 the one directory that is listed
* `probes_of_names`                           all of these, for any kernel directory -/

namespace KconfigQuery

/-- The path goes on from the directory by names only, and so it does not lead out. -/
def Path.Below (dir path : String) : Prop :=
  ∃ names : List (List Char), names ≠ [] ∧ (∀ name ∈ names, IsName name) ∧
    path.toList = dir.toList ++ '/' :: Text.joinPieces '/' names

namespace Architecture

open KconfigQuery.Path (IsName)

/-- The file of an entry in the directory that is listed. -/
def inside (kernelDir arch : String) : String :=
  directory kernelDir ++ "/" ++ arch ++ "/Kconfig"

/-- The file of an entry behind the path that has to be a link. -/
def behind (kernelDir arch : String) : String :=
  sourceLink kernelDir ++ "/arch/" ++ arch ++ "/Kconfig"

private theorem isName_arch : IsName "arch".toList := by decide

private theorem isName_source : IsName "source".toList := by decide

private theorem isName_kconfig : IsName "Kconfig".toList := by decide

variable (kernelDir : String)

private theorem toList_directory :
    (directory kernelDir).toList = Path.lead kernelDir ++ "arch".toList :=
  Path.toList_join_names kernelDir (List.cons_ne_nil _ _) (by simpa using isName_arch)

private theorem toList_sourceLink :
    (sourceLink kernelDir).toList = Path.lead kernelDir ++ "source".toList :=
  Path.toList_join_names kernelDir (List.cons_ne_nil _ _) (by simpa using isName_source)

/-- What is behind the link comes after its path and a slash. -/
private theorem lead_sourceLink :
    Path.lead (sourceLink kernelDir) = (sourceLink kernelDir).toList ++ ['/'] :=
  Path.lead_join kernelDir (List.cons_ne_nil _ _) (by simpa using isName_source)

section Entry

variable {arch : String} (h : IsName arch.toList)
include h

/-- The place of an entry, after what leads to the kernel directory. -/
private theorem toList_kconfig :
    (kconfig kernelDir arch).toList =
      Path.lead kernelDir ++ "arch/".toList ++ arch.toList ++ "/Kconfig".toList := by
  have hnames : ∀ name ∈ ["arch", arch, "Kconfig"], IsName name.toList := by
    simpa using ⟨isName_arch, h, isName_kconfig⟩
  rw [kconfig, Path.toList_join_names kernelDir (List.cons_ne_nil _ _) hnames]
  simp [Text.joinPieces]

/-- An entry is looked for in the directory that is listed. -/
theorem kconfig_eq_inside : kconfig kernelDir arch = inside kernelDir arch := by
  apply String.toList_inj.mp
  rw [toList_kconfig kernelDir h]
  simp [inside, toList_directory]

/-- Behind the link an entry is looked for below the path of the link. -/
theorem kconfig_sourceLink : kconfig (sourceLink kernelDir) arch = behind kernelDir arch := by
  apply String.toList_inj.mp
  rw [toList_kconfig (sourceLink kernelDir) h, lead_sourceLink]
  simp [behind]

/-- No place of the first family lies outside the directory that is listed. -/
private theorem below_directory : Path.Below (directory kernelDir) (inside kernelDir arch) := by
  refine ⟨[arch.toList, "Kconfig".toList], by simp, ?_, ?_⟩
  · simpa using ⟨h, isName_kconfig⟩
  · simp [inside, Text.joinPieces]

/-- No place of the second family lies outside what is behind the link. -/
private theorem below_sourceLink : Path.Below (sourceLink kernelDir) (behind kernelDir arch) := by
  refine ⟨["arch".toList, arch.toList, "Kconfig".toList], by simp, ?_, ?_⟩
  · simpa using ⟨isName_arch, h, isName_kconfig⟩
  · simp [behind, Text.joinPieces]

variable {other : String} (hother : IsName other.toList)
include hother

/-- Different entries have different places. -/
theorem kconfig_inj (heq : kconfig kernelDir arch = kconfig kernelDir other) : arch = other := by
  have hchars := congrArg String.toList heq
  -- The two paths are the same before and after the name of the entry.
  rw [toList_kconfig kernelDir h, toList_kconfig kernelDir hother] at hchars
  exact String.toList_inj.mp (List.append_cancel_left (List.append_cancel_right hchars))

/-- The names after what the two paths have in common are `arch` and `source`. -/
theorem kconfig_ne_kconfig_sourceLink :
    kconfig kernelDir arch ≠ kconfig (sourceLink kernelDir) other := by
  intro heq
  -- Both start with what leads to the kernel directory.
  have hchars := congrArg String.toList heq
  rw [toList_kconfig kernelDir h, toList_kconfig (sourceLink kernelDir) hother, lead_sourceLink,
    toList_sourceLink] at hchars
  simp at hchars

end Entry

end Architecture

namespace Store

open Architecture

/-- An inference lists one directory, if that is there, and no other. -/
theorem list_mem_architecture_iff {files : FileSystem} {store : Store} {dir path : String} :
    .list path ∈ (store.architecture files dir).events ↔
      files.isDirectory (directory dir) ∧ path = directory dir := by
  -- The messages and the query list nothing.
  have hskip : ∀ archs : List String, Event.list path ∉ skipEvents files dir archs := by
    simp [skipEvents, Event.debug]
  have hquery : Event.list path ∉ queryEvents files store dir := by
    unfold queryEvents
    split <;> simp [readingEvents]
  have hverdict : ∀ arch? : Option String, Event.list path ∉ verdictEvents dir arch? := by
    rintro (_ | arch) <;> simp [verdictEvents, Event.error]
  cases hd : files.isDirectory (directory dir) with
  | false => simp [architecture, hd, Event.error]
  | true =>
    cases hl : files.listDirectory (directory dir) with
    | error fault => simp [architecture, hd, hl, Event.error]
    | ok entries => simp [architecture, hd, hl, choose_eq, hskip, hquery, hverdict]

end Store

namespace Architecture

open KconfigQuery.Path (IsName)

/-- The paths that the search looks at, for any spelling of the kernel directory.  An entry is
    looked for in the directory that is listed, and behind the path that has to be a link; both
    places lie below these two.  Different entries have different places, and a place in the one
    directory is never one behind the link. -/
theorem probes_of_names (kernelDir : String) :
    (∀ arch : String, IsName arch.toList →
      (∀ files : FileSystem, hasKconfig files kernelDir arch =
        (files.isFile (inside kernelDir arch) ||
          (files.isSymbolicLink (sourceLink kernelDir) &&
            files.isFile (behind kernelDir arch)))) ∧
      Path.Below (directory kernelDir) (inside kernelDir arch) ∧
      Path.Below (sourceLink kernelDir) (behind kernelDir arch)) ∧
    (∀ arch other : String, IsName arch.toList → IsName other.toList →
      (arch ≠ other → inside kernelDir arch ≠ inside kernelDir other ∧
        behind kernelDir arch ≠ behind kernelDir other) ∧
      inside kernelDir arch ≠ behind kernelDir other) ∧
    ∀ (files : FileSystem) (store : Store) (path : String),
      .list path ∈ (store.architecture files kernelDir).events ↔
        files.isDirectory (directory kernelDir) ∧ path = directory kernelDir := by
  refine ⟨?_, ?_, fun files store path => Store.list_mem_architecture_iff⟩
  · intro arch harch
    refine ⟨?_, below_directory kernelDir harch, below_sourceLink kernelDir harch⟩
    intro files
    -- The definition asks for the same paths in another spelling.
    rw [hasKconfig, kconfig_eq_inside kernelDir harch, kconfig_sourceLink kernelDir harch]
  · intro arch other harch hother
    rw [← kconfig_eq_inside kernelDir harch, ← kconfig_eq_inside kernelDir hother,
      ← kconfig_sourceLink kernelDir harch, ← kconfig_sourceLink kernelDir hother]
    refine ⟨?_, kconfig_ne_kconfig_sourceLink kernelDir harch hother⟩
    intro hne
    exact ⟨fun heq => hne (kconfig_inj kernelDir harch hother heq),
      fun heq => hne (kconfig_inj (sourceLink kernelDir) harch hother heq)⟩

/-- A file behind the link of a directory that is given by way of another one. -/
theorem probes_of_names_by_way :
    let files : FileSystem := {
      contents := fun _ => .ok ""
      listDirectory := fun _ => .ok ["x86"]
      isFile := fun path => path = "../k/source/arch/x86/Kconfig"
      isDirectory := fun path => path = "../k/arch"
      isSymbolicLink := fun path => path = "../k/source" }
    IsName "x86".toList ∧ IsName "arm".toList ∧
      hasKconfig files "j/.././..//k/" "x86" = true ∧
      hasKconfig files "j/.././..//k/" "arm" = false ∧
      Path.Below "../k/source" "../k/source/arch/x86/Kconfig" := by
  intro files
  have hx86 : IsName "x86".toList := by decide
  have harm : IsName "arm".toList := by decide
  have hsource : sourceLink "j/.././..//k/" = "../k/source" := by decide +kernel
  have hbehind : behind "j/.././..//k/" "x86" = "../k/source/arch/x86/Kconfig" := by
    rw [behind, hsource]
    rfl
  -- The file is the one place behind the link for the first entry, and no place for the second.
  obtain ⟨hprobes, -, -⟩ := probes_of_names "j/.././..//k/"
  obtain ⟨hfound, -, hbelow⟩ := hprobes "x86" hx86
  obtain ⟨hmissing, -⟩ := hprobes "arm" harm
  refine ⟨hx86, harm, ?_, ?_, ?_⟩
  · rw [hfound]
    decide +kernel
  · rw [hmissing]
    decide +kernel
  · rwa [hsource, hbehind] at hbelow

end Architecture

end KconfigQuery
