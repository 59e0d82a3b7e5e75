import Mathlib.Data.List.Nodup
import EvmObject.FileTree

/-!
# Where things stand in a file tree

Names lead from a folder to what is inside of it, and a path is where names lead to from another
path. `Leads` says the first without paths. A listing is good if it has what names lead to, and
nothing twice (`Lists`). Then each thing is listed under a path that is looked up as that thing
(`at?_of_leads`). The listing of `FileTree.walk` is good (`lists_walk`).

All of this rests on what a path says about names: `stem_child`, that the path of an entry has the
parts of that of its folder and one more. It asks for names that an entry can have, which `IsProper`
demands throughout a tree.
-/

namespace EvmObject.FileTree

/-! ## Trees that can exist -/

/-- An entry can have the name. -/
structure IsName (name : String) : Prop where
  noSeparator : '/' ∉ name.toList
  ne_blank : name ≠ ""
  ne_here : name ≠ "."
  ne_above : name ≠ ".."

instance (name : String) : Decidable (IsName name) :=
  decidable_of_iff ('/' ∉ name.toList ∧ name ≠ "" ∧ name ≠ "." ∧ name ≠ "..")
    ⟨fun ⟨h₁, h₂, h₃, h₄⟩ => ⟨h₁, h₂, h₃, h₄⟩, fun ⟨h₁, h₂, h₃, h₄⟩ => ⟨h₁, h₂, h₃, h₄⟩⟩

/-- Every folder in the tree has entries with names, and no two of one name. -/
inductive IsProper : FileTree → Prop where
  | file (text : String) : IsProper (.file text)
  | unreadable : IsProper .unreadable
  | folder (entries : List (String × FileTree)) (hnames : ∀ entry ∈ entries, IsName entry.1)
      (hdistinct : (entries.map Prod.fst).Nodup) (hentries : ∀ entry ∈ entries, IsProper entry.2) :
      IsProper (.folder entries)

/-- The names lead from one tree to another, each to an entry of the folder in front of it. -/
inductive Leads : FileTree → List String → FileTree → Prop where
  | here (tree : FileTree) : Leads tree [] tree
  | inside (entries : List (String × FileTree)) (name : String) (entry : FileTree)
      (names : List String) (target : FileTree) (hmem : (name, entry) ∈ entries)
      (hleads : Leads entry names target) : Leads (.folder entries) (name :: names) target

/-- The path that names lead to from another path. -/
def pathOf (path : String) (names : List String) : String := names.foldl child path

/-- The listing has the tree at the path and everything below, each once. Nothing is said of the
order. -/
structure Lists (tree : FileTree) (path : String) (listing : List (String × FileTree)) : Prop where
  mem_iff : ∀ found, found ∈ listing ↔
    ∃ names, tree.Leads names found.2 ∧ found.1 = pathOf path names
  nodup : (listing.map Prod.fst).Nodup

theorem Lists.perm {tree : FileTree} {path : String} {listing other : List (String × FileTree)}
    (hlists : tree.Lists path listing) (hperm : other.Perm listing) : tree.Lists path other :=
  ⟨fun found => hperm.mem_iff.trans (hlists.mem_iff found),
    (hperm.map Prod.fst).nodup_iff.mpr hlists.nodup⟩

/-- Along a proper tree there are only names that an entry can have. -/
theorem Leads.isName {tree target : FileTree} {names : List String}
    (hleads : tree.Leads names target) (hproper : tree.IsProper) : ∀ name ∈ names, IsName name := by
  induction hleads with
  | here => exact List.forall_mem_nil _
  | inside entries name entry names target hmem _ ih =>
    cases hproper with
    | folder _ hnames _ hentries =>
      intro other hother
      rcases List.mem_cons.mp hother with rfl | hother
      · exact hnames _ hmem
      · exact ih (hentries _ hmem) other hother

/-! ## The parts of a path -/

theorem endsWith_iff {text ending : String} :
    text.endsWith ending = true ↔ ending.toList <:+ text.toList := by
  rw [String.endsWith_eq_endsWith_toSlice, String.Slice.endsWith_string_iff, String.copy_toSlice]

/-- The parts of a path but for a blank one at its end. -/
def stem (path : String) : List String :=
  if path.isEmpty || path.endsWith "/" then (pathParts path).dropLast else pathParts path

theorem pathParts_of_noSeparator {name : String} (hname : '/' ∉ name.toList) :
    pathParts name = [name] := by
  rw [pathParts, List.splitOn_eq_singleton hname]
  simp

theorem pathParts_append (front back : String) :
    pathParts (front ++ "/" ++ back) = pathParts front ++ pathParts back := by
  have htext : (front ++ "/" ++ back).toList = front.toList ++ '/' :: back.toList := by simp
  rw [pathParts, htext, List.splitOn_append_cons_self, List.map_append]
  rfl

/-- A path that ends with a separator has a blank part at its end. -/
theorem pathParts_of_endsWith {path : String} (hends : path.endsWith "/" = true) :
    ∃ front, path = front ++ "/" ∧ pathParts path = pathParts front ++ [""] := by
  obtain ⟨front, hfront⟩ := endsWith_iff.mp hends
  have hpath : path = String.ofList front ++ "/" := by
    apply String.toList_inj.mp
    rw [String.toList_append, String.toList_ofList]
    exact hfront.symm
  refine ⟨_, hpath, ?_⟩
  have hparts := pathParts_append (String.ofList front) ""
  rw [String.append_empty, ← hpath] at hparts
  exact hparts

/-- A path has the parts of its stem, and maybe a blank one behind them. -/
theorem pathParts_eq_stem (path : String) :
    pathParts path = stem path ∨ pathParts path = stem path ++ [""] := by
  unfold stem
  by_cases hblank : path.isEmpty = true
  · rw [hblank, Bool.true_or, if_pos rfl]
    rw [String.isEmpty_iff] at hblank
    subst hblank
    exact .inr rfl
  · by_cases hends : path.endsWith "/" = true
    · obtain ⟨_, _, hparts⟩ := pathParts_of_endsWith hends
      rw [hends, Bool.or_true, if_pos rfl, hparts, List.dropLast_concat]
      exact .inr rfl
    · rw [Bool.eq_false_iff.mpr hblank, Bool.eq_false_iff.mpr hends]
      exact .inl rfl

/-- **The path of an entry** has one part more than the stem of its folder's, and no blank one. -/
theorem pathParts_child (path : String) {name : String} (hname : '/' ∉ name.toList) :
    pathParts (child path name) = stem path ++ [name] := by
  unfold child stem
  by_cases hblank : path.isEmpty = true
  · rw [hblank, Bool.true_or, if_pos rfl, if_pos rfl]
    rw [String.isEmpty_iff] at hblank
    subst hblank
    rw [String.empty_append, pathParts_of_noSeparator hname]
    rfl
  · by_cases hends : path.endsWith "/" = true
    · obtain ⟨front, hpath, hparts⟩ := pathParts_of_endsWith hends
      rw [hends, Bool.or_true, if_pos rfl, if_pos rfl, hparts, List.dropLast_concat, hpath,
        pathParts_append, pathParts_of_noSeparator hname]
    · rw [Bool.eq_false_iff.mpr hblank, Bool.eq_false_iff.mpr hends]
      show pathParts (toString path ++ "/" ++ toString name) = _
      rw [pathParts_append]
      exact congrArg _ (pathParts_of_noSeparator hname)

theorem stem_child (path : String) {name : String} (hname : IsName name) :
    stem (child path name) = stem path ++ [name] := by
  rw [← pathParts_child path hname.noSeparator]
  rcases pathParts_eq_stem (child path name) with hparts | hparts
  · exact hparts.symm
  · -- the last part is the name, which is not blank
    have hlast := congrArg List.getLast? hparts
    rw [pathParts_child path hname.noSeparator, List.getLast?_concat, List.getLast?_concat] at hlast
    exact absurd (Option.some.inj hlast) hname.ne_blank

/-- **Names are found again** in the path that they lead to. -/
theorem stem_pathOf (path : String) {names : List String} (hnames : ∀ name ∈ names, IsName name) :
    stem (pathOf path names) = stem path ++ names := by
  induction names generalizing path with
  | nil => exact (List.append_nil _).symm
  | cons name more ih =>
    have hmore := ih (child path name) fun other hother =>
      hnames other (List.mem_cons_of_mem _ hother)
    rw [stem_child path (hnames name List.mem_cons_self), List.append_assoc] at hmore
    exact hmore

theorem pathOf_inj {path : String} {names others : List String}
    (hnames : ∀ name ∈ names, IsName name) (hothers : ∀ name ∈ others, IsName name)
    (hpath : pathOf path names = pathOf path others) : names = others := by
  have hstem := congrArg stem hpath
  rw [stem_pathOf path hnames, stem_pathOf path hothers] at hstem
  exact List.append_cancel_left hstem

/-- The last name is what an entry's path says it is called. -/
theorem lastPart?_pathOf (path : String) {names : List String} {name : String}
    (hname : IsName name) : lastPart? (pathOf path (names ++ [name])) = some name := by
  have hpath : pathOf path (names ++ [name]) = child (pathOf path names) name := by
    simp [pathOf]
  have hkept : [name].filter (fun part => part != "" && part != ".") = [name] := by
    simp [hname.ne_blank, hname.ne_here]
  rw [hpath, lastPart?, pathParts_child _ hname.noSeparator, List.filter_append, hkept,
    List.getLast?_concat]

/-! ## Looking up -/

theorem follow_cons (above : List FileTree) (tree : FileTree) (part : String) (rest : List String) :
    follow above tree (part :: rest) =
      if part = "" ∨ part = "." then if tree.isFolder then follow above tree rest else none
      else if part = ".." then
        if tree.isFolder then
          match above with
          | [] => follow [] tree rest
          | parent :: above => follow above parent rest
        else none
      else
        match tree.entries.lookup part with
        | none => none
        | some entry => follow (tree :: above) entry rest :=
  follow.eq_def above tree (part :: rest)

/-- What stands at one part more: what stood there, or an entry of it. Two points would lead
elsewhere. -/
theorem follow_append {above : List FileTree} {tree : FileTree} {parts : List String}
    {part : String} (hpart : part ≠ "..") :
    follow above tree (parts ++ [part]) =
      (follow above tree parts).bind fun place =>
        if part = "" ∨ part = "." then if place.isFolder then some place else none
        else place.entries.lookup part := by
  fun_induction follow above tree parts with
  | case1 above tree =>
    rw [List.nil_append, follow_cons, if_neg hpart, Option.bind_some]
    cases tree.entries.lookup part <;> simp [follow]
  | case2 above tree _ rest hstays hfolder ih =>
    rw [List.cons_append, follow_cons, if_pos hstays, if_pos hfolder, ih]
  | case3 above tree _ rest hstays hfolder =>
    rw [List.cons_append, follow_cons, if_pos hstays, if_neg hfolder]
    rfl
  | case4 tree rest hfolder hleaves ih =>
    rw [List.cons_append, follow_cons, if_neg hleaves, if_pos rfl, if_pos hfolder]
    exact ih
  | case5 tree rest hfolder parent above hleaves ih =>
    rw [List.cons_append, follow_cons, if_neg hleaves, if_pos rfl, if_pos hfolder]
    exact ih
  | case6 above tree rest hfolder hleaves =>
    rw [List.cons_append, follow_cons, if_neg hleaves, if_pos rfl, if_neg hfolder]
    rfl
  | case7 above tree _ rest hleaves hup hnone =>
    rw [List.cons_append, follow_cons, if_neg hleaves, if_neg hup, hnone]
    rfl
  | case8 above tree _ rest hleaves hup entry hentry ih =>
    rw [List.cons_append, follow_cons, if_neg hleaves, if_neg hup, hentry]
    exact ih

/-- A blank part at the end of a path makes no difference to what stands there. -/
theorem follow_stem_of_at? {root tree : FileTree} {path : String}
    (hat : root.at? path = some tree) : follow [] root (stem path) = some tree := by
  unfold at? at hat
  split at hat
  · cases hat
  · rcases pathParts_eq_stem path with hparts | hparts
    · rwa [hparts] at hat
    · rw [hparts, follow_append (by decide)] at hat
      obtain ⟨place, hplace, hstays⟩ := Option.bind_eq_some_iff.mp hat
      rw [if_pos (.inl rfl)] at hstays
      split at hstays
      · rwa [← Option.some.inj hstays]
      · cases hstays

/-- The entry of a name, if there is only one of that name. -/
theorem lookup_eq_of_mem {entries : List (String × FileTree)} {name : String} {entry : FileTree}
    (hdistinct : (entries.map Prod.fst).Nodup) (hmem : (name, entry) ∈ entries) :
    entries.lookup name = some entry := by
  obtain ⟨before, after, rfl⟩ := List.append_of_mem hmem
  refine List.lookup_eq_some_iff.mpr ⟨before, after, rfl, fun other hother => ?_⟩
  rw [List.map_append, List.map_cons, List.nodup_append] at hdistinct
  have hne := hdistinct.2.2 other.1 (List.mem_map_of_mem hother) name List.mem_cons_self
  exact bne_iff_ne.mpr (Ne.symm hne)

/-- **Paths lead where names do.** -/
theorem at?_of_leads {root tree target : FileTree} {path : String} {names : List String}
    (hproper : tree.IsProper) (hat : root.at? path = some tree) (hleads : tree.Leads names target) :
    root.at? (pathOf path names) = some target := by
  induction hleads generalizing path with
  | here => exact hat
  | inside entries name entry names target hmem _ ih =>
    cases hproper with
    | folder _ hnames hdistinct hentries =>
      have hname := hnames _ hmem
      have hnonblank : (child path name).isEmpty = false := by
        rw [Bool.eq_false_iff]
        intro hblank
        have hparts := pathParts_child path hname.noSeparator
        rw [String.isEmpty_iff.mp hblank] at hparts
        have hlast := congrArg List.getLast? hparts
        rw [List.getLast?_concat] at hlast
        exact hname.ne_blank (Option.some.inj hlast).symm
      have hentry : root.at? (child path name) = some entry := by
        rw [at?, hnonblank, if_neg Bool.false_ne_true, pathParts_child path hname.noSeparator,
          follow_append hname.ne_above, follow_stem_of_at? hat, Option.bind_some,
          if_neg (not_or.mpr ⟨hname.ne_blank, hname.ne_here⟩)]
        exact lookup_eq_of_mem hdistinct hmem
      exact ih (hentries _ hmem) hentry

/-! ## Walking -/

/-- A tree is listed first, and then what its entries list. -/
theorem walk_folder (path : String) (entries : List (String × FileTree)) :
    walk path (.folder entries) =
      (path, .folder entries) ::
        entries.flatMap fun entry => walk (child path entry.1) entry.2 := by
  rw [walk, List.flatMap_subtype (g := fun entry => walk (child path entry.1) entry.2)
    fun _ _ => rfl, List.unattach_attach]

theorem walk_of_not_folder (path : String) {leaf : FileTree}
    (hleaf : ∀ entries, leaf ≠ .folder entries) : walk path leaf = [(path, leaf)] := by
  rw [walk]
  exact hleaf

/-- **A walk lists what names lead to.** -/
theorem mem_walk_iff (path : String) (tree : FileTree) {found : String × FileTree} :
    found ∈ tree.walk path ↔ ∃ names, tree.Leads names found.2 ∧ found.1 = pathOf path names := by
  induction path, tree using walk.induct with
  | case1 path entries ih =>
    rw [walk_folder, List.mem_cons, List.mem_flatMap]
    constructor
    · rintro (rfl | ⟨entry, hmem, hfound⟩)
      · exact ⟨[], .here _, rfl⟩
      · obtain ⟨names, hleads, hpath⟩ := (ih ⟨entry, hmem⟩).mp hfound
        exact ⟨entry.1 :: names, .inside entries entry.1 entry.2 names _ hmem hleads, hpath⟩
    · rintro ⟨names, hleads, hpath⟩
      obtain ⟨place, target⟩ := found
      cases hleads with
      | here => exact .inl (Prod.ext hpath rfl)
      | inside _ name entry names _ hmem hleads =>
        exact .inr ⟨(name, entry), hmem, (ih ⟨_, hmem⟩).mpr ⟨names, hleads, hpath⟩⟩
  | case2 path leaf hleaf =>
    rw [walk_of_not_folder path hleaf, List.mem_singleton]
    constructor
    · rintro rfl
      exact ⟨[], .here _, rfl⟩
    · rintro ⟨names, hleads, hpath⟩
      obtain ⟨place, target⟩ := found
      cases hleads with
      | here => exact Prod.ext hpath rfl
      | inside entries => exact absurd rfl (hleaf entries)

/-- **A walk lists nothing twice.** The entries of a folder have names of their own, and the path of
the folder is shorter than theirs. -/
theorem nodup_walk (path : String) {tree : FileTree} (hproper : tree.IsProper) :
    ((tree.walk path).map Prod.fst).Nodup := by
  induction path, tree using walk.induct with
  | case1 path entries ih =>
    have hpaths : ∀ {found : String × FileTree} {entry : String × FileTree}, entry ∈ entries →
        found ∈ walk (child path entry.1) entry.2 → ∃ names, (∀ name ∈ entry.1 :: names,
          IsName name) ∧ found.1 = pathOf path (entry.1 :: names) := by
      intro found entry hmem hfound
      obtain ⟨names, hleads, hpath⟩ := (mem_walk_iff _ _).mp hfound
      have hinside := Leads.inside entries entry.1 entry.2 names _ hmem hleads
      exact ⟨names, hinside.isName hproper, hpath⟩
    cases hproper with
    | folder _ _ hdistinct hentries =>
      rw [walk_folder, List.map_cons, List.nodup_cons, List.map_flatMap, List.nodup_flatMap]
      refine ⟨fun hmem => ?_, fun entry hmem => ih ⟨entry, hmem⟩ (hentries _ hmem), ?_⟩
      · obtain ⟨entry, hmem, hfound⟩ := List.mem_flatMap.mp hmem
        obtain ⟨found, hfound, hpath⟩ := List.mem_map.mp hfound
        obtain ⟨names, hnames, hother⟩ := hpaths hmem hfound
        have heq : pathOf path [] = pathOf path (entry.1 :: names) := hpath.symm.trans hother
        cases pathOf_inj (List.forall_mem_nil _) hnames heq
      · rw [List.nodup_iff_pairwise_ne, List.pairwise_map] at hdistinct
        refine hdistinct.imp_of_mem fun {left right} hleft hright hne => ?_
        intro place hfirst hsecond
        obtain ⟨found, hfound, rfl⟩ := List.mem_map.mp hfirst
        obtain ⟨other, hother, hpath⟩ := List.mem_map.mp hsecond
        obtain ⟨names, hnames, hfoundPath⟩ := hpaths hleft hfound
        obtain ⟨others, hothers, hotherPath⟩ := hpaths hright hother
        have heq := pathOf_inj hnames hothers (hfoundPath.symm.trans (hpath.symm.trans hotherPath))
        exact hne (List.cons.inj heq).1
  | case2 path leaf hleaf =>
    rw [walk_of_not_folder path hleaf]
    exact List.nodup_singleton path

theorem lists_walk (path : String) {tree : FileTree} (hproper : tree.IsProper) :
    tree.Lists path (tree.walk path) :=
  ⟨fun _ => mem_walk_iff path tree, nodup_walk path hproper⟩

end EvmObject.FileTree
