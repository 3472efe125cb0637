import Mathlib.Data.List.Flatten
import ModCatalog.Proofs.ClassFile.Code
import ModCatalog.Proofs.ClassFile.ConstantPool
import ModCatalog.Proofs.ClassFile.Descriptors
import ModCatalog.Proofs.ClassFile.Readers

/-!
# Lengths in class files

The length of a text is read as two bytes, so a descriptor has fewer than `2 ^ 16` arguments, and
the code of a method is shorter than `2 ^ 16` bytes.  The two together leave no room for as many uses
as can be counted.
-/

namespace ModCatalog.ClassFile

/-- The number of characters of a text; other constants have none. -/
def Constant.textLength : Constant → Nat
  | .utf8 text => text.length
  | _ => 0

namespace Pool

open Reading

/-! ## The texts of a pool -/

/-- Whether every text of a pool is as short as two bytes of length can say. -/
def HasShortTexts (pool : Pool) : Prop :=
  ∀ constant ∈ pool.entries, constant.textLength < 2 ^ 16

variable {pool : Pool} {index : UInt16}

theorem HasShortTexts.length_lt {text : String} (h : pool.HasShortTexts)
    (hresolves : pool.utf8 index = .ok text) : text.length < 2 ^ 16 := by
  obtain ⟨constant, hget, htext⟩ := bind_eq_ok.mp hresolves
  have hmem : constant ∈ pool.entries := by
    unfold get at hget
    split at hget
    · cases hget
    · cases hget
    · next hentry =>
        cases hget
        exact Array.mem_of_getElem? hentry
  cases constant with
  | utf8 found =>
      cases htext
      exact h _ hmem
  | _ => cases htext

/-- The descriptor of a method is one of the texts. -/
theorem exists_utf8_of_methodRef {method : MemberRef} (h : pool.methodRef index = .ok method) :
    ∃ place, pool.utf8 place = .ok method.descriptor := by
  have hmember : ∃ owner place, pool.member owner place = .ok method := by
    obtain ⟨constant, -, h⟩ := bind_eq_ok.mp h
    cases constant with
    | methodRef owner place => exact ⟨owner, place, h⟩
    | interfaceMethodRef owner place => exact ⟨owner, place, h⟩
    | _ => cases h
  obtain ⟨owner, place, hmember⟩ := hmember
  obtain ⟨_, -, h⟩ := bind_eq_ok.mp hmember
  obtain ⟨⟨name, descriptor⟩, hboth, h⟩ := bind_eq_ok.mp h
  cases h
  obtain ⟨constant, -, h⟩ := bind_eq_ok.mp hboth
  cases constant with
  | nameAndType namePlace descriptorPlace =>
      obtain ⟨_, -, h⟩ := bind_eq_ok.mp h
      obtain ⟨_, hdescriptor, h⟩ := bind_eq_ok.mp h
      cases h
      exact ⟨descriptorPlace, hdescriptor⟩
  | _ => cases h

end Pool

section Code

variable {pool : Pool}

/-! ## The uses of code -/

theorem NamedMethod.length_arguments_lt (named : NamedMethod pool) (h : pool.HasShortTexts) :
    named.arguments.length + 1 < 2 ^ 16 := by
  obtain ⟨place, hplace⟩ := Pool.exists_utf8_of_methodRef named.resolves
  have hdescriptor := h.length_lt hplace
  have harguments := Descriptor.length_lt_of_methodArguments named.accepted
  omega

theorem Loaded.length_references_le {index : UInt16} (loaded : Loaded pool index) :
    loaded.references.length ≤ 1 := by
  cases loaded with
  | classLiteral nameIndex name resolves named => exact Option.length_toList_le
  | other constant resolves isOther => exact Nat.zero_le 1

/-- An instruction has one use at most, or it has three bytes at least and fewer uses than its
descriptor has characters. -/
theorem Instr.length_references_le (instr : Instr pool) (h : pool.HasShortTexts) :
    3 * instr.references.length ≤ 2 ^ 16 * instr.bytes.length := by
  have hbytes : 1 ≤ instr.bytes.length := Nat.succ_pos _
  have hcalled : ∀ named : NamedMethod pool,
      (Reference.ofCall named.method ::
        named.arguments.filterMap Reference.ofArgument?).length < 2 ^ 16 := fun named =>
    Nat.lt_of_le_of_lt (Nat.succ_le_succ (List.length_filterMap_le _ _))
      (named.length_arguments_lt h)
  cases instr with
  | call opcode hop named =>
      have hlength : (call opcode hop named).bytes.length = 3 := rfl
      have hcount := hcalled named
      rw [references]
      omega
  | interfaceCall named words =>
      have hlength : (interfaceCall named words).bytes.length = 5 := rfl
      have hcount := hcalled named
      rw [references]
      omega
  | load index loaded =>
      have hcount := loaded.length_references_le
      rw [references]
      omega
  | loadFar index loaded =>
      have hcount := loaded.length_references_le
      rw [references]
      omega
  | _ =>
      simp only [references, List.length_nil, List.length_singleton]
      omega

theorem length_references_le (code : List (Instr pool)) (h : pool.HasShortTexts) :
    3 * (code.flatMap Instr.references).length ≤ 2 ^ 16 * (layout code).length := by
  induction code with
  | nil => exact Nat.le_refl 0
  | cons instr rest ih =>
      have hfirst := instr.length_references_le h
      rw [List.flatMap_cons, layout_cons, List.length_append, List.length_append]
      omega

end Code

end ModCatalog.ClassFile
