import ModCatalog.Proofs.ClassFile.Lengths

/-!
# The walk over code

The walk over the code of a method goes from instruction to instruction: wherever it reads an
opcode, an instruction starts.  So it counts the uses of every sequence of instructions, in their
order, and stops in front of the end only at a use that cannot be counted any more.
-/

namespace ModCatalog.ClassFile

open Reading Instruction

/-! ## Lengths by opcode -/

/-- The table of lengths goes by the groups of instructions. -/
theorem operandLength?_of_group : ∀ opcode : UInt8,
    (Opcode.isBare opcode → operandLength? opcode.toNat = some 0) ∧
      (Opcode.isLocal opcode → operandLength? opcode.toNat = some 1) ∧
      (Opcode.isBranch opcode ∨ Opcode.isOfClass opcode →
        operandLength? opcode.toNat = some 2) ∧
      (Opcode.isBranchFar opcode → operandLength? opcode.toNat = some 4) :=
  forall_byte (by decide +kernel)

theorem toNat_of_isField {opcode : UInt8} (h : Opcode.isField opcode) :
    opcode.toNat = 0xb2 ∨ opcode.toNat = 0xb3 ∨ opcode.toNat = 0xb4 ∨ opcode.toNat = 0xb5 := by
  simp only [Opcode.isField, UInt8.le_iff_toNat_le, UInt8.reduceToNat, Bool.and_eq_true,
    decide_eq_true_eq] at h
  omega

theorem toNat_of_isCall {opcode : UInt8} (h : Opcode.isCall opcode) :
    opcode.toNat = 0xb6 ∨ opcode.toNat = 0xb7 ∨ opcode.toNat = 0xb8 := by
  simp only [Opcode.isCall, UInt8.le_iff_toNat_le, UInt8.reduceToNat, Bool.and_eq_true,
    decide_eq_true_eq] at h
  omega

/-! ## One instruction -/

/-- What an instruction adds, and whether the call of the superclass constructor is awaited after
it. -/
def Instr.effect {pool : Pool} (superClass : Option String) (awaited : Bool) (instr : Instr pool) :
    List Reference × Bool :=
  if instr.isSuperCall superClass && awaited then ([], false) else (instr.references, awaited)

section Step

variable {pool : Pool} (draft : Draft) (awaited : Bool) (rest : List UInt8) (offset : Nat)

theorem Instr.effect_of_not_super {instr : Instr pool} {superClass : Option String}
    (h : instr.isSuperCall superClass = false) :
    instr.effect superClass awaited = (instr.references, awaited) := by
  simp [Instr.effect, h]

/-- An opcode of fixed length whose operands name nothing. -/
theorem step_plain {opcode : UInt8} {operands : List UInt8}
    (h : operandLength? opcode.toNat = some operands.length) :
    runAt (step pool draft awaited) ⟨opcode :: operands ++ rest, offset⟩ =
      (.ok (draft, awaited), ⟨rest, offset + (operands.length + 1)⟩) := by
  unfold step
  simp only [List.cons_append, runAt_bind, runAt_position, runAt_u1]
  split
  -- Opcodes with a rule of their own have no length in the table.
  all_goals first
    | (rename_i hop; rw [hop] at h; cases h)
    | simp only [h, runAt_bind, runAt_skip rest _ rfl, runAt_pure, Nat.add_assoc,
        Nat.add_comm 1]

theorem step_field {opcode : UInt8} (h : Opcode.isField opcode) (named : NamedField pool) :
    runAt (step pool draft awaited) ⟨opcode :: Writing.u2 named.index ++ rest, offset⟩ =
      ((draft.use [.ofField named.field]).map (·, awaited), ⟨rest, offset + 3⟩) := by
  unfold step
  simp only [List.cons_append, runAt_bind, runAt_position, runAt_u1]
  rcases toNat_of_isField h with hop | hop | hop | hop
  all_goals
    simp only [hop, runAt_bind, runAt_u2, named.resolves, runAt_ofExcept]
    cases draft.use [.ofField named.field] <;> rfl

theorem step_call {opcode : UInt8} (h : Opcode.isCall opcode) (named : NamedMethod pool) :
    runAt (step pool draft awaited) ⟨opcode :: Writing.u2 named.index ++ rest, offset⟩ =
      let effect := (Instr.call opcode h named).effect draft.rawSuper awaited
      ((draft.use effect.1).map (·, effect.2), ⟨rest, offset + 3⟩) := by
  have hspecial : opcode = 0xb7 ↔ opcode.toNat = 0xb7 := UInt8.toNat_inj.symm
  unfold step
  simp only [List.cons_append, runAt_bind, runAt_position, runAt_u1]
  rcases toNat_of_isCall h with hop | hop | hop
  · have hsuper : (Instr.call opcode h named).isSuperCall draft.rawSuper = false := by
      simp [Instr.isSuperCall, hspecial, hop]
    rw [Instr.effect_of_not_super awaited hsuper]
    simp only [hop, runAt_bind, runAt_u2, named.resolves, runAt_ofExcept, named.addCall_eq,
      Instr.references]
    cases draft.use _ <;> rfl
  · have hsuper : (Instr.call opcode h named).isSuperCall draft.rawSuper =
        isSuperCall draft.rawSuper named.method := by
      simp [Instr.isSuperCall, isSuperCall, hspecial, hop]
    unfold Instr.effect
    rw [hsuper, Bool.and_comm]
    simp only [hop, runAt_bind, runAt_u2, named.resolves, runAt_ofExcept]
    split
    · rfl
    · simp only [runAt_bind, runAt_ofExcept, named.addCall_eq, Instr.references]
      cases draft.use _ <;> rfl
  · have hsuper : (Instr.call opcode h named).isSuperCall draft.rawSuper = false := by
      simp [Instr.isSuperCall, hspecial, hop]
    rw [Instr.effect_of_not_super awaited hsuper]
    simp only [hop, runAt_bind, runAt_u2, named.resolves, runAt_ofExcept, named.addCall_eq,
      Instr.references]
    cases draft.use _ <;> rfl

/-- The words of an interface call are passed over once the call was counted. -/
theorem step_interfaceCall (named : NamedMethod pool) (words : UInt8) :
    AnswersAt offset (step pool draft awaited) (0xb9 :: (Writing.u2 named.index ++ [words, 0])) rest
      ((draft.addCall named.method).map (·, awaited)) := by
  have hop : (0xb9 : UInt8).toNat = 0xb9 := rfl
  have hskip := runAt_skip rest (offset + 3) (show [words, 0].length = 2 from rfl)
  have hrun : runAt (step pool draft awaited)
      ⟨0xb9 :: (Writing.u2 named.index ++ [words, 0]) ++ rest, offset⟩ =
        runAt (do
          let draft ← ofExcept (draft.addCall named.method)
          skip 2
          return (draft, awaited)) ⟨[words, 0] ++ rest, offset + 3⟩ := by
    unfold step
    simp only [List.cons_append, List.append_assoc, runAt_bind, runAt_position, runAt_u1, hop,
      runAt_u2, named.resolves, runAt_ofExcept]
  cases hcounted : draft.addCall named.method with
  | ok called =>
      refine answersAt_of_runAt (hrun.trans ?_)
      simp only [hcounted, runAt_bind, runAt_ofExcept, hskip]
      rfl
  | error defect =>
      refine ⟨nofun, fun _ hdefect => ?_⟩
      cases hdefect
      rw [hrun, runAt_bind, runAt_ofExcept, hcounted]

theorem addLoad_of_loaded {index : UInt16} (loaded : Loaded pool index) :
    addLoad pool draft index = draft.use loaded.references := by
  cases loaded with
  | classLiteral nameIndex name resolves named =>
      unfold addLoad
      rw [resolves]
      show (pool.utf8 nameIndex >>= fun text => draft.addClassLiteral text) = _
      rw [named]
      rfl
  | other constant resolves isOther =>
      unfold addLoad
      rw [resolves]
      cases constant with
      | classInfo nameIndex => exact absurd rfl (isOther nameIndex)
      | _ => rfl

theorem step_load (index : UInt8) (loaded : Loaded pool index.toUInt16) :
    runAt (step pool draft awaited) ⟨0x12 :: [index] ++ rest, offset⟩ =
      ((draft.use loaded.references).map (·, awaited), ⟨rest, offset + 2⟩) := by
  have hop : (0x12 : UInt8).toNat = 0x12 := rfl
  unfold step
  simp only [List.cons_append, List.nil_append, runAt_bind, runAt_position, runAt_u1, hop,
    addLoad_of_loaded draft loaded, runAt_ofExcept]
  cases draft.use loaded.references <;> rfl

theorem step_loadFar (index : UInt16) (loaded : Loaded pool index) :
    runAt (step pool draft awaited) ⟨0x13 :: Writing.u2 index ++ rest, offset⟩ =
      ((draft.use loaded.references).map (·, awaited), ⟨rest, offset + 3⟩) := by
  have hop : (0x13 : UInt8).toNat = 0x13 := rfl
  unfold step
  simp only [List.cons_append, runAt_bind, runAt_position, runAt_u1, hop, runAt_u2,
    addLoad_of_loaded draft loaded, runAt_ofExcept]
  cases draft.use loaded.references <;> rfl

theorem step_wide {opcode : UInt8} {operands : List UInt8}
    (h : operands.length = if opcode = 0x84 then 4 else 2) :
    runAt (step pool draft awaited) ⟨0xc4 :: opcode :: operands ++ rest, offset⟩ =
      (.ok (draft, awaited), ⟨rest, offset + (operands.length + 2)⟩) := by
  have hop : (0xc4 : UInt8).toNat = 0xc4 := rfl
  unfold step
  simp only [List.cons_append, runAt_bind, runAt_position, runAt_u1, hop, runAt_skip rest _ h,
    runAt_pure, Nat.add_assoc, Nat.add_comm 2, h]

/-! ## Switches -/

theorem padding_of_isAligned {offset : Nat} {pad : List UInt8} (h : Instr.IsAligned offset pad) :
    pad.length = padding offset := by
  obtain ⟨hshort, haligned⟩ := h
  unfold padding
  omega

theorem length_flatMap_of_length {α : Type} {write : α → List UInt8} {width : Nat}
    (h : ∀ item, (write item).length = width) (items : List α) :
    (items.flatMap write).length = items.length * width := by
  induction items with
  | nil => simp
  | cons item rest ih => simp [ih, h, Nat.succ_mul, Nat.add_comm]

theorem runAt_skipTable {pad distances : List UInt8} (default : UInt32) {low high : Int32}
    (hpad : Instr.IsAligned offset pad) (isRange : low.toInt ≤ high.toInt)
    (hlength : distances.length = (high.toInt - low.toInt + 1).toNat * 4) (position : Nat) :
    runAt (skipTable offset)
        ⟨pad ++ (Writing.u4 default ++ (Writing.i4 low ++ (Writing.i4 high ++
          (distances ++ rest)))), position⟩ =
      (.ok (), ⟨rest, position + (pad.length + 12 + distances.length)⟩) := by
  have hrange : ¬ high.toInt < low.toInt := by omega
  unfold skipTable
  rw [padding_of_isAligned hpad, hlength]
  simp only [runAt_bind, runAt_skip _ _ (padding_of_isAligned hpad),
    runAt_skip _ _ (Writing.length_u4 default), runAt_i4, if_neg hrange, runAt_skip _ _ hlength,
    Nat.add_assoc, Nat.reduceAdd]

theorem runAt_skipLookup {pad pairs : List UInt8} (default : UInt32) {count : Int32}
    (hpad : Instr.IsAligned offset pad) (hcount : 0 ≤ count.toInt)
    (hlength : pairs.length = count.toInt.toNat * 8) (position : Nat) :
    runAt (skipLookup offset)
        ⟨pad ++ (Writing.u4 default ++ (Writing.i4 count ++ (pairs ++ rest))), position⟩ =
      (.ok (), ⟨rest, position + (pad.length + 8 + pairs.length)⟩) := by
  have hnone : ¬ count.toInt < 0 := by omega
  unfold skipLookup
  rw [padding_of_isAligned hpad, hlength]
  simp only [runAt_bind, runAt_skip _ _ (padding_of_isAligned hpad),
    runAt_skip _ _ (Writing.length_u4 default), runAt_i4, if_neg hnone, runAt_skip _ _ hlength,
    Nat.add_assoc, Nat.reduceAdd]

theorem step_tableSwitch {pad : List UInt8} {low high : Int32} {distances : List UInt32}
    (default : UInt32) (isRange : low.toInt ≤ high.toInt)
    (covers : (distances.length : Int) = high.toInt - low.toInt + 1)
    (hpad : Instr.IsAligned offset pad) :
    let instr : Instr pool := .tableSwitch pad default low high distances isRange covers
    runAt (step pool draft awaited) ⟨instr.bytes ++ rest, offset⟩ =
      (.ok (draft, awaited), ⟨rest, offset + instr.bytes.length⟩) := by
  have hop : (0xaa : UInt8).toNat = 0xaa := rfl
  have hlength : (distances.flatMap Writing.u4).length =
      (high.toInt - low.toInt + 1).toNat * 4 := by
    rw [length_flatMap_of_length Writing.length_u4, ← covers, Int.toNat_natCast]
  unfold step
  simp only [Instr.bytes, Instr.opcode, Instr.operands, List.cons_append, List.append_assoc,
    runAt_bind, runAt_position, runAt_u1, hop, runAt_skipTable _ _ default hpad isRange hlength,
    runAt_pure, List.length_cons, List.length_append, Writing.length_u4, Writing.length_i4]
  congr 2
  omega

theorem step_lookupSwitch {pad : List UInt8} {count : Int32} {pairs : List (Int32 × UInt32)}
    (default : UInt32) (counts : (pairs.length : Int) = count.toInt)
    (hpad : Instr.IsAligned offset pad) :
    let instr : Instr pool := .lookupSwitch pad default count pairs counts
    runAt (step pool draft awaited) ⟨instr.bytes ++ rest, offset⟩ =
      (.ok (draft, awaited), ⟨rest, offset + instr.bytes.length⟩) := by
  have hop : (0xab : UInt8).toNat = 0xab := rfl
  have hcount : 0 ≤ count.toInt := by omega
  have hlength : (pairs.flatMap fun pair => Writing.i4 pair.1 ++ Writing.u4 pair.2).length =
      count.toInt.toNat * 8 := by
    have hpair : ∀ pair : Int32 × UInt32,
        (Writing.i4 pair.1 ++ Writing.u4 pair.2).length = 8 := fun pair => by simp
    rw [length_flatMap_of_length hpair, ← counts, Int.toNat_natCast]
  unfold step
  simp only [Instr.bytes, Instr.opcode, Instr.operands, List.cons_append, List.append_assoc,
    runAt_bind, runAt_position, runAt_u1, hop, runAt_skipLookup _ _ default hpad hcount hlength,
    runAt_pure, List.length_cons, List.length_append, Writing.length_u4, Writing.length_i4]
  congr 2
  omega

/-! ## Any instruction -/

/-- Wherever an instruction fits, the walk counts its uses and passes over exactly its bytes. -/
theorem step_instr (instr : Instr pool) (fits : instr.FitsAt offset) :
    let effect := instr.effect draft.rawSuper awaited
    AnswersAt offset (step pool draft awaited) instr.bytes rest
      ((draft.use effect.1).map (·, effect.2)) := by
  cases instr with
  | bare opcode h =>
      have hlength := (operandLength?_of_group opcode).1 h
      exact answersAt_of_runAt (step_plain draft awaited rest offset hlength)
  | pushByte value => exact answersAt_of_runAt (step_plain draft awaited rest offset rfl)
  | pushShort value => exact answersAt_of_runAt (step_plain draft awaited rest offset rfl)
  | load index loaded => exact answersAt_of_runAt (step_load draft awaited rest offset index loaded)
  | loadFar index loaded =>
      exact answersAt_of_runAt (step_loadFar draft awaited rest offset index loaded)
  | loadWide index => exact answersAt_of_runAt (step_plain draft awaited rest offset rfl)
  | atLocal opcode h number =>
      have hlength := (operandLength?_of_group opcode).2.1 h
      exact answersAt_of_runAt (step_plain draft awaited rest offset hlength)
  | increment number amount => exact answersAt_of_runAt (step_plain draft awaited rest offset rfl)
  | branch opcode h distance =>
      have hlength := (operandLength?_of_group opcode).2.2.1 (.inl h)
      exact answersAt_of_runAt (step_plain draft awaited rest offset hlength)
  | branchFar opcode h distance =>
      have hlength := (operandLength?_of_group opcode).2.2.2 h
      exact answersAt_of_runAt (step_plain draft awaited rest offset hlength)
  | tableSwitch padding default low high distances isRange covers =>
      exact answersAt_of_runAt
        (step_tableSwitch draft awaited rest offset default isRange covers fits)
  | lookupSwitch padding default count pairs counts =>
      exact answersAt_of_runAt (step_lookupSwitch draft awaited rest offset default counts fits)
  | field opcode h named => exact answersAt_of_runAt (step_field draft awaited rest offset h named)
  | call opcode h named => exact answersAt_of_runAt (step_call draft awaited rest offset h named)
  | interfaceCall named words =>
      have hcall := step_interfaceCall draft awaited rest offset named words
      rw [named.addCall_eq] at hcall
      exact hcall
  | dynamicCall index => exact answersAt_of_runAt (step_plain draft awaited rest offset rfl)
  | ofClass opcode h index =>
      have hlength := (operandLength?_of_group opcode).2.2.1 (.inr h)
      exact answersAt_of_runAt (step_plain draft awaited rest offset hlength)
  | newArray elementType => exact answersAt_of_runAt (step_plain draft awaited rest offset rfl)
  | newArrays index dimensions => exact answersAt_of_runAt (step_plain draft awaited rest offset rfl)
  | atLocalWide opcode h number =>
      have hlocal : opcode ≠ 0x84 := by
        rintro rfl
        cases h
      exact answersAt_of_runAt (step_wide draft awaited rest offset (if_neg hlocal).symm)
  | incrementWide number amount => exact answersAt_of_runAt (step_wide draft awaited rest offset rfl)

end Step

/-! ## Whole methods -/

section Walk

variable {pool : Pool}

theorem usesOf_cons (superClass : Option String) (awaited : Bool) (instr : Instr pool)
    (rest : List (Instr pool)) :
    usesOf superClass awaited (instr :: rest) =
      (instr.effect superClass awaited).1 ++
        usesOf superClass (instr.effect superClass awaited).2 rest := by
  unfold usesOf counted Instr.effect
  cases awaited with
  | false => simp
  | true => cases h : instr.isSuperCall superClass <;> simp [h]

/-- A walk that is not at the end takes a step. -/
theorem runAt_steps_succ (draft : Draft) (awaited : Bool) {bytes : List UInt8}
    (hmore : bytes.isEmpty = false) (count offset : Nat) :
    runAt (steps pool (count + 1) draft awaited) ⟨bytes, offset⟩ =
      runAt (do
        let next ← step pool draft awaited
        steps pool count next.1 next.2) ⟨bytes, offset⟩ := by
  simp only [steps, runAt_bind, runAt_atEnd, hmore, Bool.false_eq_true, if_false]

/-- As many steps as one likes count the uses of as many instructions, or of all there are. -/
theorem steps_code (count : Nat) (draft : Draft) (awaited : Bool) (code : List (Instr pool))
    (offset : Nat) (fits : FitFrom offset code) :
    AnswersAt offset (steps pool count draft awaited) (layout (code.take count))
      (layout (code.drop count)) (draft.use (usesOf draft.rawSuper awaited (code.take count))) := by
  induction count generalizing draft awaited code offset with
  | zero => exact answersAt_of_runAt (by cases awaited <;> rfl)
  | succ count ih =>
      cases code with
      | nil => exact answersAt_of_runAt (by cases awaited <;> rfl)
      | cons instr rest =>
          obtain ⟨hfits, hrest⟩ := fits
          have hstep := step_instr draft awaited
            (layout (rest.take count) ++ layout (rest.drop count)) offset instr hfits
          have hboth := hstep.bind fun next _ => ih next.1 next.2 rest _ hrest
          have hanswer : draft.use (usesOf draft.rawSuper awaited (instr :: rest.take count)) =
              (draft.use (instr.effect draft.rawSuper awaited).1).map
                (·, (instr.effect draft.rawSuper awaited).2) >>= fun next =>
                  next.1.use (usesOf next.1.rawSuper next.2 (rest.take count)) := by
            rw [usesOf_cons, Draft.use_append]
            cases hused : draft.use (instr.effect draft.rawSuper awaited).1 with
            | error defect => rfl
            | ok used =>
                cases Draft.eq_withUses_of_use hused
                rfl
          rw [List.take_succ_cons, List.drop_succ_cons, layout_cons, hanswer]
          refine hboth.of_runAt_eq ?_
          rw [List.append_assoc]
          exact runAt_steps_succ draft awaited rfl count offset

theorem walk_layout (draft : Draft) (inConstructor : Bool) {code : List (Instr pool)}
    (fits : FitFrom 0 code) :
    walk pool inConstructor (layout code) draft =
      draft.use (usesOf draft.rawSuper inConstructor code) := by
  have h := (steps_code (layout code).length draft inConstructor code 0 fits).fst_runAt
  rw [List.take_of_length_le (length_le_layout code),
    List.drop_of_length_le (length_le_layout code)] at h
  unfold walk runOn
  rw [Cursor.start, ← h, layout, layout, List.flatMap_nil, List.append_nil]

end Walk

end ModCatalog.ClassFile
