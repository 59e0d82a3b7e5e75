import EvmObject.Command.Answer
import EvmObject.Proofs.Suite.Keyed
import EvmObject.Proofs.Validation.Pipeline

/-!
# The accounts of suites

What a summary should say is said here of the vectors alone. `Vector.Matches` compares a vector with
what validation makes of its bytes, `Vector.FailsUnder` names the account that a failed vector goes
to, and `Summary.Accounts` says that a summary has counted just these vectors. A vector more
(`Accounts.count`) and the vectors of another summary (`Accounts.merge`) keep the accounts right, so
they are right for a suite and for any number of suites. Merging is commutative and associative as
the counts under each name are, and so the order of the files does not matter: `suite_accounts`.
-/

namespace EvmObject

open Suite (Vector Summary Verdict Report Keyed falsePositive)

/-! ## What a vector should come to -/

namespace Suite.Vector

/-- The bytes are a valid container. -/
def IsAccepted (vector : Vector) : Prop :=
  ∃ valid, Validation.validate .default vector.code = .ok valid

/-- The bytes are refused with an error of this name. -/
def IsRefusedAs (vector : Vector) (name : String) : Prop :=
  ∃ rejection, Validation.validate .default vector.code = .error (.refused rejection) ∧
    rejection.error.name = name

/-- The vector says what validation does. -/
structure Matches (vector : Vector) : Prop where
  validity : vector.isValid = true ↔ vector.IsAccepted
  /-- If it asks for an error and there is one, it is that error. -/
  exception : ∀ expected name, vector.exception? = some expected → vector.IsRefusedAs name →
    expected = name

/-- The vector does not match, and its failure is counted under this name: that of the error, or
that of vectors which should have been refused. -/
def FailsUnder (vector : Vector) (name : String) : Prop :=
  ¬ vector.Matches ∧ (vector.IsRefusedAs name ∨ vector.IsAccepted ∧ name = falsePositive)

/-! ## What the verdict says -/

section
variable (vector : Vector)

/-- Validation accepts or refuses; it never crashes. -/
theorem isAccepted_or_refused :
    (∃ valid, Validation.validate .default vector.code = .ok valid) ∨
      ∃ rejection, Validation.validate .default vector.code = .error (.refused rejection) := by
  cases hattempt : Validation.validate .default vector.code with
  | ok valid => exact .inl ⟨valid, rfl⟩
  | error failure =>
    cases failure with
    | refused rejection => exact .inr ⟨rejection, rfl⟩
    | crashed => exact absurd hattempt Validation.validate_ne_crashed

variable {vector} {name : String}

theorem isRefusedAs_of_refused {rejection : Validation.Rejection}
    (hrefused : Validation.validate .default vector.code = .error (.refused rejection)) :
    vector.IsRefusedAs name ↔ rejection.error.name = name := by
  simp [IsRefusedAs, hrefused]

theorem not_isAccepted_of_refused {rejection : Validation.Rejection}
    (hrefused : Validation.validate .default vector.code = .error (.refused rejection)) :
    ¬ vector.IsAccepted := by
  simp [IsAccepted, hrefused]

theorem not_isRefusedAs_of_accepted {valid : Validation.Validated}
    (haccepted : Validation.validate .default vector.code = .ok valid) :
    ¬ vector.IsRefusedAs name := by
  simp [IsRefusedAs, haccepted]

/-- The verdict passes exactly the vectors that match. -/
theorem passed_judge_iff : vector.judge.passed = true ↔ vector.Matches := by
  rcases vector.isAccepted_or_refused with ⟨valid, haccepted⟩ | ⟨rejection, hrefused⟩
  · have hpassed : vector.judge.passed = vector.isValid := by
      simp [judge, haccepted, allowsName, Except.isOk, Except.toBool]
    rw [hpassed]
    constructor
    · exact fun hvalid => ⟨iff_of_true hvalid ⟨valid, haccepted⟩,
        fun _ _ _ hname => absurd hname (not_isRefusedAs_of_accepted haccepted)⟩
    · exact fun hmatches => hmatches.validity.mpr ⟨valid, haccepted⟩
  · have hpassed : vector.judge.passed =
        (!vector.isValid && vector.allowsName (some rejection.error.name)) := by
      simp [judge, hrefused, Except.isOk, Except.toBool]
    have hallows : vector.allowsName (some rejection.error.name) = true ↔
        ∀ expected, vector.exception? = some expected → expected = rejection.error.name := by
      unfold allowsName
      cases vector.exception? <;> simp
    rw [hpassed, Bool.and_eq_true, hallows, Bool.not_eq_true']
    constructor
    · rintro ⟨hinvalid, hname⟩
      refine ⟨iff_of_false (by simp [hinvalid]) (not_isAccepted_of_refused hrefused),
        fun expected name hexpected hrefusedAs => ?_⟩
      rw [← (isRefusedAs_of_refused hrefused).mp hrefusedAs]
      exact hname expected hexpected
    · intro hmatches
      refine ⟨?_, fun expected hexpected =>
        hmatches.exception expected _ hexpected ((isRefusedAs_of_refused hrefused).mpr rfl)⟩
      exact Bool.eq_false_iff.mpr fun hvalid =>
        not_isAccepted_of_refused hrefused (hmatches.validity.mp hvalid)

/-- The name that the verdict counts a failure under. -/
theorem name_judge_eq_iff :
    vector.judge.errorName?.getD falsePositive = name ↔
      vector.IsRefusedAs name ∨ vector.IsAccepted ∧ name = falsePositive := by
  rcases vector.isAccepted_or_refused with ⟨valid, haccepted⟩ | ⟨rejection, hrefused⟩
  · have hname : vector.judge.errorName? = none := by simp [judge, haccepted]
    have hisAccepted : vector.IsAccepted := ⟨valid, haccepted⟩
    simp [hname, hisAccepted, not_isRefusedAs_of_accepted haccepted, eq_comm]
  · have hname : vector.judge.errorName? = some rejection.error.name := by simp [judge, hrefused]
    simp [hname, isRefusedAs_of_refused hrefused, not_isAccepted_of_refused hrefused]

instance : Decidable vector.Matches := decidable_of_iff _ passed_judge_iff

instance : Decidable (vector.FailsUnder name) :=
  decidable_of_iff (¬ vector.Matches ∧ vector.judge.errorName?.getD falsePositive = name)
    (and_congr_right fun _ => name_judge_eq_iff)

theorem failsUnder_iff : vector.FailsUnder name ↔
    ¬ vector.Matches ∧ vector.judge.errorName?.getD falsePositive = name :=
  and_congr_right fun _ => name_judge_eq_iff.symm

end

end Suite.Vector

/-! ## One summary -/

namespace Suite

/-- The vectors of all groups. -/
def vectors (suite : Suite) : List Vector :=
  suite.entries.flatMap fun (_, group) => group.entries.map (·.2)

namespace Summary

/-- The summary has counted these vectors, each once. -/
structure Accounts (summary : Summary) (vectors : List Vector) : Prop where
  total : summary.total = vectors.length
  passed : summary.passed = vectors.countP fun vector => vector.Matches
  /-- A vector has passed or is counted under some name. -/
  balance : summary.passed + summary.failures.sum = summary.total
  failures : ∀ name, (summary.failures.get? name).getD 0 =
    vectors.countP fun vector => vector.FailsUnder name

theorem accounts_empty : empty.Accounts [] where
  total := rfl
  passed := rfl
  balance := rfl
  failures _ := rfl

/-- **One vector more.** -/
theorem Accounts.count {summary : Summary} {vectors : List Vector}
    (haccounts : summary.Accounts vectors) (vector : Vector) :
    (summary.count vector.judge).Accounts (vectors ++ [vector]) := by
  obtain ⟨htotal, hpassed, hbalance, hfailures⟩ := haccounts
  by_cases hmatches : vector.Matches
  · have hcount : summary.count vector.judge =
        ⟨summary.total + 1, summary.passed + 1, summary.failures⟩ := by
      rw [Summary.count, if_pos (Vector.passed_judge_iff.mpr hmatches)]
    rw [hcount]
    refine ⟨?_, ?_, ?_, fun name => ?_⟩
    · simp [htotal]
    · simp [hpassed, hmatches]
    · simp only
      omega
    · have hnot : ¬ vector.FailsUnder name := fun hfails => hfails.1 hmatches
      simp [hfailures, hnot]
  · have hcount : summary.count vector.judge = ⟨summary.total + 1, summary.passed,
        summary.failures.count (vector.judge.errorName?.getD falsePositive) 1⟩ := by
      rw [Summary.count, if_neg fun h => hmatches (Vector.passed_judge_iff.mp h)]
    rw [hcount]
    refine ⟨?_, ?_, ?_, fun name => ?_⟩
    · simp [htotal]
    · simp [hpassed, hmatches]
    · simp only [Keyed.sum_count]
      omega
    · rw [Keyed.get?_count, List.countP_append, ← hfailures]
      by_cases hname : vector.judge.errorName?.getD falsePositive = name
      · simp [hname, Vector.failsUnder_iff, hmatches]
      · simp [hname, Ne.symm hname, Vector.failsUnder_iff]

theorem Accounts.foldl_count {summary : Summary} {before : List Vector}
    (haccounts : summary.Accounts before) (vectors : List Vector) :
    (vectors.foldl (fun summary vector => summary.count vector.judge) summary).Accounts
      (before ++ vectors) := by
  induction vectors generalizing summary before with
  | nil => simpa using haccounts
  | cons vector rest ih =>
    rw [List.foldl_cons, List.append_cons]
    exact ih (haccounts.count vector)

end Summary

/-! ## A suite -/

theorem summary_add (report : Report) (group name : String) (vector : Vector) :
    (report.add group name vector).summary = report.summary.count vector.judge := by
  cases hpassed : vector.judge.passed <;> simp [Report.add, hpassed]

/-- A suite is summed up vector by vector. -/
theorem summary_run (suite : Suite) :
    (run suite).summary =
      suite.vectors.foldl (fun summary vector => summary.count vector.judge) .empty := by
  have hgroup : ∀ (name : String) (group : List (String × Vector)) (report : Report),
      (group.foldl (fun report entry => report.add name entry.1 entry.2) report).summary =
      (group.map (·.2)).foldl (fun summary vector => summary.count vector.judge)
        report.summary := by
    intro name group report
    rw [List.foldl_map]
    exact (List.foldl_hom Report.summary fun report entry => (summary_add report ..).symm).symm
  rw [vectors, List.foldl_flatMap, run]
  exact (List.foldl_hom Report.summary fun report entry =>
    (hgroup entry.1 entry.2.entries report).symm).symm

theorem accounts_run (suite : Suite) : (run suite).summary.Accounts suite.vectors := by
  have haccounts := Summary.accounts_empty.foldl_count suite.vectors
  rwa [List.nil_append, ← summary_run] at haccounts

/-! ## Summaries as numbers and counts -/

namespace Summary

theorem ext_get? {a b : Summary} (htotal : a.total = b.total) (hpassed : a.passed = b.passed)
    (hfailures : ∀ name, a.failures.get? name = b.failures.get? name) : a = b := by
  obtain ⟨_, _, _⟩ := a
  obtain ⟨_, _, _⟩ := b
  rw [Summary.mk.injEq]
  exact ⟨htotal, hpassed, Keyed.ext_get? hfailures⟩

theorem get?_failures_merge (a b : Summary) (name : String) :
    (a.merge b).failures.get? name =
      Option.merge (· + ·) (a.failures.get? name) (b.failures.get? name) :=
  Keyed.get?_foldl_count b.failures.ascending a.failures name

theorem sum_failures_merge (a b : Summary) :
    (a.merge b).failures.sum = a.failures.sum + b.failures.sum :=
  Keyed.sum_foldl_count b.failures.entries a.failures

theorem merge_comm (a b : Summary) : a.merge b = b.merge a := by
  refine ext_get? (Nat.add_comm ..) (Nat.add_comm ..) fun name => ?_
  rw [get?_failures_merge, get?_failures_merge]
  exact Std.Commutative.comm ..

theorem merge_assoc (a b c : Summary) : (a.merge b).merge c = a.merge (b.merge c) := by
  refine ext_get? (Nat.add_assoc ..) (Nat.add_assoc ..) fun name => ?_
  simp only [get?_failures_merge]
  exact Std.Associative.assoc ..

theorem merge_empty (a : Summary) : a.merge empty = a := rfl

theorem empty_merge (a : Summary) : empty.merge a = a := by
  rw [merge_comm, merge_empty]

/-- **The vectors of another summary.** -/
theorem Accounts.merge {a b : Summary} {before behind : List Vector} (ha : a.Accounts before)
    (hb : b.Accounts behind) : (a.merge b).Accounts (before ++ behind) where
  total := by
    rw [List.length_append, ← ha.total, ← hb.total]
    rfl
  passed := by
    rw [List.countP_append, ← ha.passed, ← hb.passed]
    rfl
  balance := by
    have hleft := ha.balance
    have hright := hb.balance
    rw [sum_failures_merge]
    simp only [Summary.merge]
    omega
  failures name := by
    rw [List.countP_append, ← ha.failures, ← hb.failures, get?_failures_merge]
    cases a.failures.get? name <;> cases b.failures.get? name <;> simp

/-- All is well exactly if all vectors match. -/
theorem Accounts.passed_eq_total_iff {summary : Summary} {vectors : List Vector}
    (haccounts : summary.Accounts vectors) :
    summary.passed = summary.total ↔ ∀ vector ∈ vectors, vector.Matches := by
  rw [haccounts.passed, haccounts.total, List.countP_eq_length]
  simp

theorem Accounts.total_sub_passed {summary : Summary} {vectors : List Vector}
    (haccounts : summary.Accounts vectors) :
    summary.total - summary.passed = vectors.countP fun vector => ¬ vector.Matches := by
  rw [haccounts.passed, haccounts.total,
    List.length_eq_countP_add_countP fun vector : Vector => decide vector.Matches]
  simp

end Summary

end Suite

/-! ## Any number of suites -/

namespace Command

/-- Some suite stands in the file. -/
def Reads (file : String × FileTree) (suite : Suite) : Prop :=
  ∃ text, file.2.text? = some text ∧ Suite.read text = some suite

/-- The files at the paths hold these suites, in the order in which the files are found. -/
structure Holds (look : String → Option FileTree) (paths : List String) (suites : List Suite) :
    Prop where
  exist : ∀ path ∈ paths, (look path).isSome = true
  reads : List.Forall₂ Reads
    (paths.flatMap fun path => ((look path).map (·.jsonFiles path)).getD []) suites

namespace Progress

/-- What has become of suites that are run one after the other. -/
def ofSuites (suites : List Suite) : Progress :=
  suites.foldl (fun progress suite => progress.add (Suite.run suite)) .start

theorem summary_ofSuites (suites : List Suite) :
    (ofSuites suites).summary =
      (suites.map fun suite => (Suite.run suite).summary).foldl Summary.merge .empty := by
  rw [List.foldl_map]
  exact (List.foldl_hom Progress.summary fun _ _ => rfl).symm

/-- The order of suites does not matter. -/
theorem summary_ofSuites_perm {suites order : List Suite} (hperm : order.Perm suites) :
    (ofSuites order).summary = (ofSuites suites).summary := by
  rw [summary_ofSuites, summary_ofSuites]
  refine (hperm.map _).foldl_eq' (fun a _ b _ c => ?_) _
  rw [Summary.merge_assoc, Summary.merge_assoc, Summary.merge_comm a b]

theorem accounts_ofSuites (suites : List Suite) :
    (ofSuites suites).summary.Accounts (suites.flatMap Suite.vectors) := by
  have hfrom : ∀ (progress : Progress) (before : List Vector),
      progress.summary.Accounts before →
      (suites.foldl (fun progress suite => progress.add (Suite.run suite))
        progress).summary.Accounts (before ++ suites.flatMap Suite.vectors) := by
    induction suites with
    | nil => simp
    | cons suite rest ih =>
      intro progress before hbefore
      rw [List.foldl_cons, List.flatMap_cons, ← List.append_assoc]
      exact ih _ _ (hbefore.merge (Suite.accounts_run suite))
  exact hfrom .start [] Summary.accounts_empty

/-- What the program ends with after it has run all suites. -/
theorem error?_finish_ofSuites (suites : List Suite) :
    (ofSuites suites).finish.error? =
      let vectors := suites.flatMap Suite.vectors
      if ∀ vector ∈ vectors, vector.Matches then none
      else some (.suite (vectors.countP fun vector => ¬ vector.Matches) vectors.length) := by
  have haccounts := accounts_ofSuites suites
  have herror : (ofSuites suites).finish.error? =
      if (ofSuites suites).summary.passed = (ofSuites suites).summary.total then none
      else some (Error.suite ((ofSuites suites).summary.total - (ofSuites suites).summary.passed)
        (ofSuites suites).summary.total) := rfl
  rw [herror, if_congr haccounts.passed_eq_total_iff rfl rfl, haccounts.total_sub_passed,
    haccounts.total]

/-! ## Files -/

theorem foldlM_addFile {files : List (String × FileTree)} {suites : List Suite}
    (hreads : List.Forall₂ Reads files suites) (progress : Progress) :
    files.foldlM addFile progress =
      .ok (suites.foldl (fun progress suite => progress.add (Suite.run suite)) progress) := by
  induction hreads generalizing progress with
  | nil => rfl
  | @cons file suite files suites hread _ ih =>
    obtain ⟨text, htext, hsuite⟩ := hread
    have hadd : progress.addFile file = .ok (progress.add (Suite.run suite)) := by
      simp only [addFile, htext, hsuite]
    rw [List.foldlM_cons, hadd, List.foldl_cons]
    exact ih _

theorem foldlM_addPath (walker : FileTree.Walker) {look : String → Option FileTree}
    {paths : List String} (hexist : ∀ path ∈ paths, (look path).isSome = true)
    (progress : Progress) :
    paths.foldlM (addPath walker look) progress =
      (paths.flatMap fun path =>
        ((look path).map fun tree => FileTree.jsonEntries (walker path tree)).getD []).foldlM
          addFile progress := by
  induction paths generalizing progress with
  | nil => rfl
  | cons path rest ih =>
    obtain ⟨tree, htree⟩ := Option.isSome_iff_exists.mp (hexist path List.mem_cons_self)
    have hrest := ih fun path hmem => hexist path (List.mem_cons_of_mem _ hmem)
    rw [List.foldlM_cons, List.flatMap_cons, List.foldlM_append]
    simp only [addPath, htree, Option.map_some, Option.getD_some, hrest]

end Progress

/-- If every path exists and every file there holds a suite, all of them are run. -/
theorem Holds.suite_eq {look : String → Option FileTree} {paths : List String}
    {suites : List Suite} (hholds : Holds look paths suites) :
    Command.suite look paths = (Progress.ofSuites suites).finish := by
  have hfiles := Progress.foldlM_addPath FileTree.walk hholds.exist .start
  have hruns := Progress.foldlM_addFile hholds.reads .start
  rw [Command.suite, suiteWith, hfiles.trans hruns]
  rfl

/-! ## All accounts -/

/-- **The accounts of suites are right, in whatever order the files come.** The summary of a suite
counts each of its vectors once: it has passed, or it is counted under the name of the error that its
validation ended with, or under the name for vectors that should have been refused. Merging summaries
is commutative and associative, and a summary of nothing changes nothing. So suites come to the same
summary and the same end in every order. All is well exactly if every vector of every suite matches;
otherwise the error holds how many do not, and how many vectors there are. And this is what the
program ends with if each of the files that it finds holds a suite. -/
theorem suite_accounts :
    (∀ suite : Suite, (Suite.run suite).summary.Accounts suite.vectors) ∧
    (∀ a b c : Summary, a.merge b = b.merge a ∧ (a.merge b).merge c = a.merge (b.merge c) ∧
      Summary.empty.merge a = a ∧ a.merge .empty = a) ∧
    (∀ suites order : List Suite, order.Perm suites →
      (Progress.ofSuites order).summary = (Progress.ofSuites suites).summary ∧
        (Progress.ofSuites order).finish.error? = (Progress.ofSuites suites).finish.error?) ∧
    (∀ suites : List Suite,
      let vectors := suites.flatMap Suite.vectors
      let progress := Progress.ofSuites suites
      progress.summary.Accounts vectors ∧
        (progress.finish.error? = none ↔
          ∀ suite ∈ suites, ∀ vector ∈ suite.vectors, vector.Matches) ∧
        ∀ error, progress.finish.error? = some error →
          error = .suite (vectors.countP fun vector => ¬ vector.Matches) vectors.length) ∧
    ∀ look paths suites, Holds look paths suites →
      Command.suite look paths = (Progress.ofSuites suites).finish := by
  refine ⟨Suite.accounts_run, fun a b c => ⟨Summary.merge_comm a b, Summary.merge_assoc a b c,
    Summary.empty_merge a, Summary.merge_empty a⟩, fun suites order hperm => ?_,
    fun suites => ⟨Progress.accounts_ofSuites suites, ?_, fun error herror => ?_⟩,
    fun look paths suites hholds => hholds.suite_eq⟩
  · have hsummary := Progress.summary_ofSuites_perm hperm
    refine ⟨hsummary, ?_⟩
    simp only [Progress.finish, hsummary]
  · rw [Progress.error?_finish_ofSuites]
    simp only [ite_eq_left_iff, reduceCtorEq, imp_false, not_not, List.forall_mem_flatMap]
  · rw [Progress.error?_finish_ofSuites] at herror
    simp only at herror
    split at herror
    · cases herror
    · exact (Option.some.inj herror).symm

/-- A suite of one vector. -/
def singleSuite (group name : String) (vector : Vector) : Suite :=
  Keyed.empty.put group (Keyed.empty.put name vector)

/-- No bytes, which should be refused. -/
def refusedText : String :=
  "\x7b\"a\": \x7b\"vectors\": \x7b\"v\": \x7b\"code\": \"\", \"result\": false\x7d\x7d\x7d\x7d"

/-- No bytes, which should be a container. -/
def validText : String :=
  "\x7b\"b\": \x7b\"vectors\": \x7b\"w\": \x7b\"code\": \"\", \"result\": true\x7d\x7d\x7d\x7d"

/-- The two texts in files of their own. -/
def twoFiles (path : String) : Option FileTree :=
  [("a.json", FileTree.file refusedText), ("b.json", FileTree.file validText)].lookup path

/-- The second file holds the vector that fails, be it run last or first. -/
theorem suite_accounts_two_files :
    let first := singleSuite "a" "v" ⟨[], false, none⟩
    let second := singleSuite "b" "w" ⟨[], true, none⟩
    Holds twoFiles ["a.json", "b.json"] [first, second] ∧
      Holds twoFiles ["b.json", "a.json"] [second, first] ∧
      [second, first].Perm [first, second] ∧
      (Command.suite twoFiles ["a.json", "b.json"]).error? = some (.suite 1 2) ∧
      (Command.suite twoFiles ["b.json", "a.json"]).error? = some (.suite 1 2) := by
  intro first second
  have hfirst : Reads ("a.json", .file refusedText) first := ⟨_, rfl, by decide +kernel⟩
  have hsecond : Reads ("b.json", .file validText) second := ⟨_, rfl, by decide +kernel⟩
  have hnamed : FileTree.isJsonPath "a.json" = true ∧ FileTree.isJsonPath "b.json" = true := by
    decide +kernel
  have hlook : twoFiles "a.json" = some (.file refusedText) ∧
      twoFiles "b.json" = some (.file validText) := ⟨rfl, rfl⟩
  have hforth : Holds twoFiles ["a.json", "b.json"] [first, second] :=
    ⟨by simp [hlook], by simpa [hlook, FileTree.jsonFiles, FileTree.jsonEntries,
      FileTree.walk, hnamed] using
      ⟨hfirst, hsecond⟩⟩
  have hback : Holds twoFiles ["b.json", "a.json"] [second, first] :=
    ⟨by simp [hlook], by simpa [hlook, FileTree.jsonFiles, FileTree.jsonEntries,
      FileTree.walk, hnamed] using
      ⟨hsecond, hfirst⟩⟩
  have hperm : [second, first].Perm [first, second] := .swap first second []
  have hone : (Progress.ofSuites [first, second]).finish.error? = some (.suite 1 2) := by
    decide +kernel
  obtain ⟨_, _, horder, _, hcommand⟩ := suite_accounts
  refine ⟨hforth, hback, hperm, ?_, ?_⟩
  · rw [hcommand _ _ _ hforth, hone]
  · rw [hcommand _ _ _ hback, (horder _ _ hperm).2, hone]

end Command

end EvmObject
