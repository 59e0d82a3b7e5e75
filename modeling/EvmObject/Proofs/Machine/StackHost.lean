import EvmObject.Machine.StackHost
import EvmObject.Proofs.Machine.Stack
import EvmObject.Proofs.Opcode.Table

/-!
# The stack-only host keeps to the instruction table

Each instruction of the stack-only host rewrites the topmost words, and takes and leaves as many as
the table says: `exists_rewrites`. The pushes, the stack moves, the computations and the placeholder
for everything else are four separate paths in the host, and each of them has to agree with entries
that are written elsewhere. It follows what the host may fail with (`stackHost_fault`).

`Host.StaysInReach` is what this gives to those who only know that a host is asked for instructions
whose inputs are there: it neither changes nor reads what lies below them.
-/

namespace EvmObject.Machine

/-- The faults of the data stack. -/
def Fault.IsStack (fault : Fault) : Prop :=
  fault = .stackUnderflow ∨ fault = .stackOverflow

namespace StackHost

open Stack (Rewrites exchangeEnds rewrites_of_le rewrites_push rewrites_dup rewrites_swap)

/-! ## Computations -/

theorem rewrites_unary (f : Word → Word) : Rewrites (unary f) 1 1 (·.map f) := by
  apply rewrites_of_le (Nat.le_refl 1)
  · intro taken htaken
    rw [List.length_map, htaken]
  · intro stack hshort
    rw [unary, Stack.pop_of_empty (Nat.lt_one_iff.mp hshort)]
  · intro stack below taken hwords htaken
    obtain ⟨word, rfl⟩ := List.length_eq_one_iff.mp htaken
    obtain ⟨rest, hpop, hrest⟩ := Stack.pop_of_append hwords
    have hroom : rest.size < Limits.stack := by
      rw [← Stack.length_toList, hrest]
      exact Stack.length_le_of_append hwords
    obtain ⟨after, hpush, hafter⟩ := Stack.push_of_lt hroom (f word)
    refine ⟨after, ?_, ?_⟩
    · rw [unary, hpop]
      exact hpush
    · rw [hafter, hrest]
      rfl

/-- The topmost of the two words is the first operand. -/
def applyBinary (f : Word → Word → Word) : List Word → List Word
  | [b, a] => [f a b]
  | _ => []

theorem exists_pair {taken : List Word} (htaken : taken.length = 2) : ∃ b a, taken = [b, a] := by
  match taken with
  | [b, a] => exact ⟨b, a, rfl⟩

theorem rewrites_binary (f : Word → Word → Word) : Rewrites (binary f) 2 1 (applyBinary f) := by
  apply rewrites_of_le (by decide)
  · intro taken htaken
    obtain ⟨b, a, rfl⟩ := exists_pair htaken
    rfl
  · intro stack hshort
    rw [binary, Stack.popMany_of_short hshort]
  · intro stack below taken hwords htaken
    obtain ⟨b, a, rfl⟩ := exists_pair htaken
    obtain ⟨rest, hpop, hrest⟩ := Stack.popMany_of_append hwords
    have hroom : rest.size < Limits.stack := by
      have hfits : below.length + 2 ≤ Limits.stack := Stack.length_le_of_append hwords
      rw [← Stack.length_toList, hrest]
      omega
    obtain ⟨after, hpush, hafter⟩ := Stack.push_of_lt hroom (f a b)
    have hpop' : stack.popMany 2 = (.ok [a, b], rest) := hpop
    refine ⟨after, ?_, ?_⟩
    · rw [binary, hpop']
      exact hpush
    · rw [hafter, hrest]
      rfl

theorem rewrites_discard : Rewrites discard 1 0 fun _ => [] := by
  apply rewrites_of_le (by decide)
  · intro taken htaken
    rfl
  · intro stack hshort
    rw [discard, Stack.pop_of_empty (Nat.lt_one_iff.mp hshort)]
  · intro stack below taken hwords htaken
    obtain ⟨word, rfl⟩ := List.length_eq_one_iff.mp htaken
    obtain ⟨rest, hpop, hrest⟩ := Stack.pop_of_append hwords
    refine ⟨rest, ?_, ?_⟩
    · rw [discard, hpop]
    · rw [hrest, List.append_nil]

theorem rewrites_placeholder (info : Opcode.Info) :
    Rewrites (placeholder info) info.inputs info.outputs
      fun _ => List.replicate info.outputs 0 where
  length_eq _ _ := List.length_replicate
  short stack hshort := by rw [placeholder, if_pos hshort]
  full stack henough hfull := by
    -- a stack within its limit overflows only by more outputs than inputs, so nothing is cut off
    have hle := stack.size_le
    have hspace : stack.hasSpace (info.outputs - info.inputs) = false := by
      rw [Stack.hasSpace, decide_eq_false_iff_not]
      omega
    rw [placeholder, if_neg (Nat.not_lt.mpr henough), hspace]
    rfl
  done stack below taken hwords htaken hroom := by
    have hsize : stack.size = below.length + info.inputs := by
      rw [← Stack.length_toList, hwords, List.length_append, htaken]
    have hspace : stack.hasSpace (info.outputs - info.inputs) = true := by
      have hle := stack.size_le
      rw [Stack.hasSpace, decide_eq_true_iff]
      omega
    have hrest := Stack.toList_truncate_of_append hwords
    rw [htaken] at hrest
    have hfits : (stack.truncate (stack.size - info.inputs)).size +
        (List.replicate info.outputs (0 : Word)).length ≤ Limits.stack := by
      rw [← Stack.length_toList, hrest, List.length_replicate]
      exact hroom
    obtain ⟨after, hpush, hafter⟩ := Stack.pushAll_of_le hfits
    refine ⟨after, ?_, ?_⟩
    · rw [placeholder, if_neg (by omega), hspace]
      exact hpush
    · rw [hafter, hrest]

/-! ## Every instruction -/

variable {op : Opcode}

/-- A computation takes and leaves what the table says. -/
theorem exists_rewrites_of_computation? {compute : Stack → Stack.Result Unit}
    (hcompute : computation? op.byte = some compute) :
    ∃ f, Rewrites compute op.info.inputs op.info.outputs f := by
  unfold computation? at hcompute
  split at hcompute <;> cases hcompute
  all_goals
    next hbyte =>
      rw [Opcode.info_eq_of_byte hbyte rfl]
      first
      | exact ⟨_, rewrites_binary _⟩
      | exact ⟨_, rewrites_unary _⟩
      | exact ⟨_, rewrites_discard⟩

/-- **Every instruction takes and leaves what the table says,** unless it pushes more bytes than a
word has. -/
theorem exists_rewrites {immediate : Bytes}
    (hfits : 0x5F ≤ op.byte ∧ op.byte ≤ 0x7F → immediate.length ≤ Limits.wordBytes) :
    ∃ act f, (∀ stack, perform? op immediate stack = some (act stack)) ∧
      Rewrites act op.info.inputs op.info.outputs f := by
  -- the host asks for the bytes in this order
  by_cases hpush : 0x5F ≤ op.byte ∧ op.byte ≤ 0x7F
  · obtain ⟨hinputs, houtputs⟩ := Opcode.words_of_push hpush
    have hrewrites : Rewrites (Stack.push · (BitVec.ofNat 256 (Bytes.toNat immediate)))
        op.info.inputs op.info.outputs fun _ => [BitVec.ofNat 256 (Bytes.toNat immediate)] := by
      rw [hinputs, houtputs]
      exact rewrites_push _
    refine ⟨_, _, fun stack => ?_, hrewrites⟩
    simp only [perform?]
    rw [if_pos hpush, Stack.pushBytes?_of_le (hfits hpush)]
  by_cases hdup : 0x80 ≤ op.byte ∧ op.byte ≤ 0x8F
  · obtain ⟨hn, hinputs, houtputs⟩ := Opcode.words_of_dup hdup
    have hrewrites : Rewrites (Stack.dup · (op.byte.toNat - 0x7F)) op.info.inputs op.info.outputs
        fun taken => taken ++ taken.take 1 := by
      rw [hinputs, houtputs]
      exact rewrites_dup hn
    refine ⟨_, _, fun stack => ?_, hrewrites⟩
    simp only [perform?]
    rw [if_neg hpush, if_pos hdup]
  by_cases hswap : 0x90 ≤ op.byte ∧ op.byte ≤ 0x9F
  · obtain ⟨hn, hinputs, houtputs⟩ := Opcode.words_of_swap hswap
    have hrewrites : Rewrites (Stack.swap · (op.byte.toNat - 0x8F)) op.info.inputs op.info.outputs
        exchangeEnds := by
      rw [hinputs, houtputs]
      exact rewrites_swap hn
    refine ⟨_, _, fun stack => ?_, hrewrites⟩
    simp only [perform?]
    rw [if_neg hpush, if_neg hdup, if_pos hswap]
  cases hcompute : computation? op.byte with
  | some compute =>
    obtain ⟨f, hrewrites⟩ := exists_rewrites_of_computation? hcompute
    refine ⟨compute, f, fun stack => ?_, hrewrites⟩
    simp only [perform?]
    rw [if_neg hpush, if_neg hdup, if_neg hswap, hcompute]
  | none =>
    refine ⟨placeholder op.info, _, fun stack => ?_, rewrites_placeholder op.info⟩
    simp only [perform?]
    rw [if_neg hpush, if_neg hdup, if_neg hswap, hcompute]

/-- What an instruction leaves behind is the result of the operation, and the opcode is noted unless
it failed. -/
theorem execute?_eq {immediate : Bytes} {stack : Stack} {result : Stack.Result Unit}
    (hperform : perform? op immediate stack = some result) (trace : Trace) :
    execute? op immediate stack trace =
      some ⟨result.1, result.2, if result.1.isOk then op :: trace else trace⟩ := by
  simp only [execute?, hperform, Option.map_some]
  obtain ⟨answer, after⟩ := result
  cases answer with
  | ok value => rfl
  | error fault => rfl

theorem execute_eq {immediate : Bytes} {stack : Stack} {result : Stack.Result Unit}
    (hperform : perform? op immediate stack = some result) (trace : Trace) :
    stackHost.execute op immediate stack trace =
      ⟨result.1, result.2, if result.1.isOk then op :: trace else trace⟩ := by
  simp only [stackHost, execute?_eq hperform]

/-- A push of more bytes than a word has does nothing. -/
theorem execute_of_long {immediate : Bytes} (hpush : 0x5F ≤ op.byte ∧ op.byte ≤ 0x7F)
    (hlong : ¬ immediate.length ≤ Limits.wordBytes) (stack : Stack) (trace : Trace) :
    stackHost.execute op immediate stack trace = ⟨.error .host, stack, trace⟩ := by
  have hnone : execute? op immediate stack trace = none := by
    simp only [execute?, perform?]
    rw [if_pos hpush, Stack.pushBytes?, Word.ofBytes?, if_neg hlong]
    rfl
  simp only [stackHost, hnone]

theorem isStack_of_rewrites {act : Stack → Stack.Result Unit} {inputs outputs : Nat}
    {f : List Word → List Word} (hact : Rewrites act inputs outputs f) {stack : Stack}
    {fault : Fault} (hfault : (act stack).1 = .error fault) : fault.IsStack := by
  rcases Nat.lt_or_ge stack.size inputs with hshort | henough
  · rw [hact.short stack hshort] at hfault
    exact .inl (Except.error.inj hfault).symm
  · rcases hact.cases_of_le henough with ⟨_, hfails⟩ | ⟨_, after, hdone, _⟩
    · rw [hfails] at hfault
      exact .inr (Except.error.inj hfault).symm
    · rw [hdone] at hfault
      cases hfault

end StackHost

/-- **The stack-only host fails by its stack,** or because a push has too many bytes. -/
theorem stackHost_fault {op : Opcode} {immediate : Bytes} {stack : Stack} {trace : StackHost.Trace}
    {fault : Fault} (hfault : (stackHost.execute op immediate stack trace).result = .error fault) :
    fault.IsStack ∨ fault = .host := by
  by_cases hfits : 0x5F ≤ op.byte ∧ op.byte ≤ 0x7F → immediate.length ≤ Limits.wordBytes
  · obtain ⟨act, f, hperform, hrewrites⟩ := StackHost.exists_rewrites hfits
    rw [StackHost.execute_eq (hperform stack)] at hfault
    exact .inl (StackHost.isStack_of_rewrites hrewrites hfault)
  · obtain ⟨hpush, hlong⟩ := Classical.not_imp.mp hfits
    rw [StackHost.execute_of_long hpush hlong] at hfault
    exact .inr (Except.error.inj hfault).symm

/-! ## Below the inputs -/

/-- The host leaves the words below the inputs of an instruction alone, and what it makes of the
others does not depend on them. -/
structure Host.StaysInReach {σ : Type} (host : Host σ) : Prop where
  below : ∀ (op : Opcode) (immediate : Bytes) (stack : Stack) (state : σ) (base : Nat),
    immediate.length = op.info.immediateSize → base + op.info.inputs ≤ stack.size →
      Stack.SameBelow base (host.execute op immediate stack state).stack stack
  above : ∀ (op : Opcode) (immediate : Bytes) (left right : Stack) (state : σ) (base : Nat),
    immediate.length = op.info.immediateSize → base + op.info.inputs ≤ left.size →
      Stack.SameAbove base left right →
        (host.execute op immediate left state).result =
            (host.execute op immediate right state).result ∧
          (host.execute op immediate left state).host =
            (host.execute op immediate right state).host ∧
          Stack.SameAbove base (host.execute op immediate left state).stack
            (host.execute op immediate right state).stack

/-- **The stack-only host stays within reach.** -/
theorem stackHost_staysInReach : stackHost.StaysInReach where
  below op immediate stack trace base hlength hreach := by
    have hfits : immediate.length ≤ Limits.wordBytes := hlength ▸ op.immediateSize_le
    obtain ⟨act, f, hperform, hrewrites⟩ := StackHost.exists_rewrites fun _ => hfits
    rw [StackHost.execute_eq (hperform stack)]
    exact hrewrites.sameBelow hreach
  above op immediate left right trace base hlength hreach hsame := by
    have hfits : immediate.length ≤ Limits.wordBytes := hlength ▸ op.immediateSize_le
    obtain ⟨act, f, hperform, hrewrites⟩ := StackHost.exists_rewrites fun _ => hfits
    obtain ⟨hresult, hstacks⟩ := hrewrites.sameAbove hsame hreach
    rw [StackHost.execute_eq (hperform left), StackHost.execute_eq (hperform right), hresult]
    exact ⟨rfl, rfl, hstacks⟩

end EvmObject.Machine
