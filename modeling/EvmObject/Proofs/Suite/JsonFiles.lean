import EvmObject.Proofs.FileTree
import EvmObject.Proofs.Sequencing
import EvmObject.Proofs.Suite.Accounts

/-!
# Which suites are found

A search keeps of a listing what is named like a JSON file. If the listing is good (`Lists`), the
search is exact as far as names go: under a path it finds everything whose name has the extension,
each once, at a path where it then stands (`search_goes_by_name`). It does not ask what it has
found. So a folder that is named like a file is found with the files, and the program, which goes on
to read it, ends with an error.
-/

namespace EvmObject

namespace FileTree

/-! ## Extensions -/

/-- The extension stands behind the last point of the name, and the name does not start with that
point. Two points are no name. -/
def HasExtension (name extension : String) : Prop :=
  name ≠ ".." ∧ '.' ∉ extension.toList ∧ ∃ front, front ≠ "" ∧ name = front ++ "." ++ extension

theorem isJsonName_iff {name : String} : isJsonName name = true ↔ HasExtension name "json" := by
  rw [isJsonName, Bool.and_eq_true, bne_iff_ne, endsWith_iff]
  constructor
  · rintro ⟨⟨front, hfront⟩, hhidden⟩
    have hname : name = String.ofList front ++ "." ++ "json" := by
      apply String.toList_inj.mp
      rw [← hfront]
      simp
    refine ⟨?_, by decide, String.ofList front, ?_, hname⟩
    · rintro rfl
      exact absurd (congrArg List.getLast? hfront) (by simp)
    · intro hblank
      rw [hblank] at hname
      exact hhidden hname
  · rintro ⟨-, -, front, hfront, rfl⟩
    refine ⟨⟨front.toList, by simp⟩, fun hhidden => hfront ?_⟩
    have hlength := congrArg (fun text : String => text.toList.length) hhidden
    simp only [String.toList_append, List.length_append] at hlength
    apply String.toList_inj.mp
    exact List.eq_nil_of_length_eq_zero (by simpa using hlength)

/-- The path names something with the extension. -/
def IsCalled (path extension : String) : Prop :=
  ∃ name, lastPart? path = some name ∧ HasExtension name extension

theorem isJsonPath_iff {path : String} : isJsonPath path = true ↔ IsCalled path "json" := by
  rw [isJsonPath, Option.any_eq_true]
  exact exists_congr fun name => and_congr_right fun _ => isJsonName_iff

/-! ## Searching -/

namespace Lists

variable {tree : FileTree} {path : String} {listing : List (String × FileTree)}
  (hlists : tree.Lists path listing)
include hlists

theorem mem_jsonEntries_iff {found : String × FileTree} :
    found ∈ jsonEntries listing ↔ ∃ names, tree.Leads names found.2 ∧
      found.1 = pathOf path names ∧ IsCalled found.1 "json" := by
  rw [jsonEntries, List.mem_filter, hlists.mem_iff, isJsonPath_iff]
  simp only [← and_assoc, exists_and_right]

theorem nodup_jsonEntries : ((jsonEntries listing).map Prod.fst).Nodup :=
  hlists.nodup.sublist (List.filter_sublist.map Prod.fst)

/-- An entry is found by its own name, whatever the folders above are called. -/
theorem mem_jsonEntries_entry_iff {target : FileTree} {names : List String} {name : String}
    (hproper : tree.IsProper) (hleads : tree.Leads (names ++ [name]) target) :
    (pathOf path (names ++ [name]), target) ∈ jsonEntries listing ↔ HasExtension name "json" := by
  have hname : IsName name :=
    hleads.isName hproper name (List.mem_append_right _ List.mem_cons_self)
  have hlast : lastPart? (pathOf path (names ++ [name])) = some name := lastPart?_pathOf path hname
  rw [hlists.mem_jsonEntries_iff]
  constructor
  · rintro ⟨_, _, _, other, hother, hextension⟩
    rwa [Option.some.inj (hlast.symm.trans hother)]
  · exact fun hextension => ⟨_, hleads, rfl, name, hlast, hextension⟩

end Lists

end FileTree

/-! ## Reading what was found -/

namespace Command

open FileTree

namespace Progress

/-- A file is run, or the program ends in one of two ways. -/
theorem addFile_eq_error_iff {progress : Progress} {file : String × FileTree} {answer : Answer} :
    progress.addFile file = .error answer ↔
      file.2.text? = none ∧ answer = progress.fail .unreadable ∨
      (∃ text, file.2.text? = some text ∧ Suite.read text = none) ∧
        answer = progress.fail (.malformed file.1) := by
  unfold addFile
  cases htext : file.2.text? with
  | none => simp [eq_comm]
  | some text => cases hread : Suite.read text <;> simp [hread, eq_comm]

theorem exists_addFile_eq_ok_iff (progress : Progress) {file : String × FileTree} :
    (∃ next, progress.addFile file = .ok next) ↔ ∃ suite, Reads file suite := by
  unfold addFile Reads
  cases htext : file.2.text? with
  | none => simp
  | some text => cases hread : Suite.read text <;> simp [hread]

/-- Files are run to the end exactly if each holds a suite. -/
theorem exists_foldlM_addFile_eq_ok_iff {files : List (String × FileTree)} {progress : Progress} :
    (∃ next, files.foldlM addFile progress = .ok next) ↔
      ∀ file ∈ files, ∃ suite, Reads file suite := by
  induction files generalizing progress with
  | nil => simp [pure, Except.pure]
  | cons file files ih =>
    rw [List.forall_mem_cons, ← exists_addFile_eq_ok_iff progress]
    constructor
    · rintro ⟨last, hlast⟩
      rw [List.foldlM_cons] at hlast
      obtain ⟨next, hnext, hrest⟩ := bind_eq_ok_iff.mp hlast
      exact ⟨⟨next, hnext⟩, ih.mp ⟨last, hrest⟩⟩
    · rintro ⟨⟨next, hnext⟩, hrest⟩
      obtain ⟨last, hlast⟩ := ih.mpr hrest
      exact ⟨last, by rw [List.foldlM_cons, hnext]; exact hlast⟩

/-- Files are run up to one that cannot be read. -/
theorem exists_unreadable_iff {files : List (String × FileTree)} (progress : Progress) :
    (∃ answer, files.foldlM addFile progress = .error answer ∧ answer.error? = some .unreadable) ↔
      ∃ before found after, files = before ++ found :: after ∧
        (∀ file ∈ before, ∃ suite, Reads file suite) ∧ found.2.text? = none := by
  simp only [foldlM_eq_error_iff, addFile_eq_error_iff]
  constructor
  · rintro ⟨answer, ⟨before, found, after, state, hsplit, hbefore, hends⟩, hunreadable⟩
    refine ⟨before, found, after, hsplit, exists_foldlM_addFile_eq_ok_iff.mp ⟨state, hbefore⟩, ?_⟩
    rcases hends with ⟨htext, _⟩ | ⟨_, rfl⟩
    · exact htext
    · cases hunreadable
  · rintro ⟨before, found, after, hsplit, hbefore, htext⟩
    obtain ⟨state, hstate⟩ := exists_foldlM_addFile_eq_ok_iff.mpr hbefore
    exact ⟨state.fail .unreadable,
      ⟨before, found, after, state, hsplit, hstate, .inl ⟨htext, rfl⟩⟩, rfl⟩

end Progress

/-- The program cannot read a file that it was told to run or has found in a folder. -/
theorem error?_suiteWith_eq_unreadable_iff {walker : Walker} {look : String → Option FileTree}
    {paths : List String} (hexist : ∀ path ∈ paths, (look path).isSome = true) :
    (suiteWith walker look paths).error? = some .unreadable ↔
      ∃ before found after,
        (paths.flatMap fun path =>
          ((look path).map fun tree => jsonEntries (walker path tree)).getD []) =
            before ++ found :: after ∧
        (∀ file ∈ before, ∃ suite, Reads file suite) ∧ found.2.text? = none := by
  rw [suiteWith, Progress.foldlM_addPath walker hexist, ← Progress.exists_unreadable_iff .start]
  generalize (paths.flatMap fun path =>
    ((look path).map fun tree => jsonEntries (walker path tree)).getD []) = files
  cases files.foldlM Progress.addFile .start with
  | error answer => simp
  | ok progress =>
    -- a run to the end may still have failures to report
    have hfinish : progress.finish.error? ≠ some .unreadable := by
      unfold Progress.finish
      dsimp only
      split <;> simp
    simp [hfinish]

/-! ## The search -/

/-- **A search goes by names, and by nothing else.** Let a walker list the tree at a path and
everything below it, each once, in any order. What the search finds is what names lead to from there
and what is called like a JSON file, be it a file or a folder; an entry is found by its own name, at
any depth. Nothing is found twice, and everything stands where it was found. A run of the suites
there ends with an unreadable file exactly if one without a text is found, as folders are, and all
that was found in front of it are suites. The walk that puts a folder in front of its entries is
such a walker. -/
theorem search_goes_by_name {root tree : FileTree} {path : String} (hat : root.at? path = some tree)
    (hproper : tree.IsProper) :
    tree.Lists path (tree.walk path) ∧
    ∀ walker : Walker, tree.Lists path (walker path tree) →
      (∀ found, found ∈ jsonEntries (walker path tree) ↔
        ∃ names, tree.Leads names found.2 ∧ found.1 = pathOf path names ∧
          IsCalled found.1 "json") ∧
      (∀ names name target, tree.Leads (names ++ [name]) target →
        ((pathOf path (names ++ [name]), target) ∈ jsonEntries (walker path tree) ↔
          HasExtension name "json")) ∧
      ((jsonEntries (walker path tree)).map Prod.fst).Nodup ∧
      (∀ found ∈ jsonEntries (walker path tree), root.at? found.1 = some found.2) ∧
      ((suiteWith walker root.at? [path]).error? = some .unreadable ↔
        ∃ before found after, jsonEntries (walker path tree) = before ++ found :: after ∧
          (∀ file ∈ before, ∃ suite, Reads file suite) ∧ found.2.text? = none) := by
  refine ⟨lists_walk path hproper, fun walker hlists => ⟨fun found => hlists.mem_jsonEntries_iff,
    fun names name target hleads => hlists.mem_jsonEntries_entry_iff hproper hleads,
    hlists.nodup_jsonEntries, fun found hfound => ?_, ?_⟩⟩
  · obtain ⟨names, hleads, hpath, -⟩ := hlists.mem_jsonEntries_iff.mp hfound
    rw [hpath]
    exact at?_of_leads hproper hat hleads
  · rw [error?_suiteWith_eq_unreadable_iff (by simp [hat])]
    simp [hat]

/-- A folder that is named like a file, with a suite in it. -/
def oldSuites : FileTree :=
  .folder [("b.json", .file validText), ("notes.json.txt", .file "")]

/-- A folder with a suite, that folder, and two files that have no extension. -/
def suiteFolder : FileTree :=
  .folder [("a.json", .file refusedText), (".json", .file ""), ("json", .file ""),
    ("old.json", oldSuites)]

theorem isProper_oldSuites : oldSuites.IsProper := by
  refine .folder _ (by decide) (by decide) fun entry hentry => ?_
  simp only [List.mem_cons, List.not_mem_nil, or_false] at hentry
  rcases hentry with rfl | rfl
  · exact .file _
  · exact .file _

theorem isProper_suiteFolder : suiteFolder.IsProper := by
  refine .folder _ (by decide) (by decide) fun entry hentry => ?_
  simp only [List.mem_cons, List.not_mem_nil, or_false] at hentry
  rcases hentry with rfl | rfl | rfl | rfl
  · exact .file _
  · exact .file _
  · exact .file _
  · exact isProper_oldSuites

/-- Whatever the order, the suite in the folder that is named like a file is found, and a file whose
name starts with the point is not. -/
theorem search_goes_by_name_suite_folder :
    let walker : Walker := fun path tree => (tree.walk path).reverse
    (FileTree.folder [("t", suiteFolder)]).at? "t" = some suiteFolder ∧ suiteFolder.IsProper ∧
    suiteFolder.Lists "t" (walker "t" suiteFolder) ∧
    ("t/old.json/b.json", .file validText) ∈ jsonEntries (walker "t" suiteFolder) ∧
    ("t/.json", .file "") ∉ jsonEntries (walker "t" suiteFolder) ∧
    ((jsonEntries (walker "t" suiteFolder)).map Prod.fst).Nodup := by
  intro walker
  have hat : (FileTree.folder [("t", suiteFolder)]).at? "t" = some suiteFolder := rfl
  obtain ⟨hwalk, hsearch⟩ := search_goes_by_name hat isProper_suiteFolder
  have hlists : suiteFolder.Lists "t" (walker "t" suiteFolder) := hwalk.perm (List.reverse_perm _)
  obtain ⟨_, hentry, hnodup, _, _⟩ := hsearch walker hlists
  have hdeep : suiteFolder.Leads (["old.json"] ++ ["b.json"]) (.file validText) :=
    .inside _ "old.json" oldSuites _ _ (by simp) (.inside _ _ _ _ _ (by simp) (.here _))
  have hhidden : suiteFolder.Leads ([] ++ [".json"]) (.file "") :=
    .inside _ _ _ _ _ (by simp) (.here _)
  have hpaths : pathOf "t" (["old.json"] ++ ["b.json"]) = "t/old.json/b.json" ∧
      pathOf "t" ([] ++ [".json"]) = "t/.json" := by
    decide +kernel
  rw [← hpaths.1, ← hpaths.2]
  refine ⟨hat, isProper_suiteFolder, hlists, ?_, ?_, hnodup⟩
  · exact (hentry _ _ _ hdeep).mpr (isJsonName_iff.mp (by decide +kernel))
  · intro hfound
    have hcalled := isJsonName_iff.mpr ((hentry _ _ _ hhidden).mp hfound)
    exact absurd hcalled (by decide +kernel)

/-- A folder in a folder is found as a file would be, and cannot be read. -/
theorem search_finds_folder :
    let tree := FileTree.folder [("d.json", .folder [])]
    let root := FileTree.folder [("@", tree)]
    root.at? "@" = some tree ∧ ("@/d.json", .folder []) ∈ tree.jsonFiles "@" ∧
      (suite root.at? ["@"]).error? = some .unreadable := by
  intro tree root
  have hat : root.at? "@" = some tree := rfl
  have hpath : child "@" "d.json" = "@/d.json" := by decide +kernel
  have hnamed : isJsonPath "@" = false ∧ isJsonPath "@/d.json" = true := by decide +kernel
  have hfiles : tree.jsonFiles "@" = [("@/d.json", .folder [])] := by
    simp only [tree, jsonFiles, jsonEntries, walk_folder, List.flatMap_cons, List.flatMap_nil,
      List.append_nil, List.filter_cons, List.filter_nil, hpath, hnamed, Bool.false_eq_true,
      if_false, if_true]
  refine ⟨hat, by rw [hfiles]; exact List.mem_singleton.mpr rfl, ?_⟩
  rw [suite, error?_suiteWith_eq_unreadable_iff (by simp [hat])]
  exact ⟨[], ("@/d.json", .folder []), [], by simpa [hat, jsonFiles] using hfiles,
    List.forall_mem_nil _, rfl⟩

end Command

end EvmObject
