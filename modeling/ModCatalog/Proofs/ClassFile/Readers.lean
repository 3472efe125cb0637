import Mathlib.Data.List.Induction
import ModCatalog.ClassFile.Pool
import ModCatalog.Proofs.Answers
import ModCatalog.Proofs.ClassFile.Words

/-!
# Readers in both directions

Written bytes have one answer, a value or a defect, whatever follows them.  In the other direction,
what a reader took to give a value is something that can be written, and the same reader takes it
again wherever it stands.
-/

namespace ModCatalog.ClassFile

namespace Reading

variable {α β ι : Type}

/-! ## Answers to what is written -/

/-- Whether a reader that stands in front of `front`, with `back` behind it, gives one answer, and
takes exactly `front` if the answer is a value. -/
structure AnswersAt (position : Nat) (reading : Reading α) (front back : List UInt8)
    (answer : Except Defect α) : Prop where
  reads : ∀ value, answer = .ok value →
    runAt reading ⟨front ++ back, position⟩ = (.ok value, ⟨back, position + front.length⟩)
  fails : ∀ defect, answer = .error defect →
    (runAt reading ⟨front ++ back, position⟩).1 = .error defect

theorem answersAt_of_runAt {position : Nat} {reading : Reading α} {front back : List UInt8}
    {answer : Except Defect α}
    (h : runAt reading ⟨front ++ back, position⟩ = (answer, ⟨back, position + front.length⟩)) :
    AnswersAt position reading front back answer :=
  ⟨fun _ hvalue => by rw [h, hvalue], fun _ hdefect => by rw [h, hdefect]⟩

theorem AnswersAt.of_runAt_eq {position : Nat} {reading other : Reading α}
    {front back : List UInt8} {answer : Except Defect α}
    (h : AnswersAt position reading front back answer)
    (hsame : runAt other ⟨front ++ back, position⟩ = runAt reading ⟨front ++ back, position⟩) :
    AnswersAt position other front back answer :=
  ⟨fun value hvalue => hsame.trans (h.reads value hvalue),
    fun defect hdefect => (congrArg Prod.fst hsame).trans (h.fails defect hdefect)⟩

theorem AnswersAt.fst_runAt {position : Nat} {reading : Reading α} {front back : List UInt8}
    {answer : Except Defect α} (h : AnswersAt position reading front back answer) :
    (runAt reading ⟨front ++ back, position⟩).1 = answer := by
  cases answer with
  | ok value => rw [h.reads value rfl]
  | error defect => exact h.fails defect rfl

theorem AnswersAt.bind {position : Nat} {reading : Reading α} {next : α → Reading β}
    {front middle back : List UInt8} {answer : Except Defect α} {further : α → Except Defect β}
    (h : AnswersAt position reading front (middle ++ back) answer)
    (hnext : ∀ value, answer = .ok value →
      AnswersAt (position + front.length) (next value) middle back (further value)) :
    AnswersAt position (reading >>= next) (front ++ middle) back (answer >>= further) := by
  cases answer with
  | ok value =>
      have hfront := h.reads value rfl
      have hmiddle := hnext value rfl
      constructor
      · intro result hresult
        rw [List.append_assoc, runAt_bind, hfront, List.length_append, ← Nat.add_assoc]
        exact hmiddle.reads result hresult
      · intro defect hdefect
        rw [List.append_assoc, runAt_bind, hfront]
        exact hmiddle.fails defect hdefect
  | error first =>
      refine ⟨nofun, fun defect hdefect => ?_⟩
      cases hdefect
      have hfront := h.fails first rfl
      rw [List.append_assoc, runAt_bind]
      generalize runAt reading ⟨front ++ (middle ++ back), position⟩ = run at hfront
      obtain ⟨answer, after⟩ := run
      cases hfront
      rfl

/-- Whether a reader gives one answer for `bytes`, wherever they stand and whatever follows them. -/
def Answers (reading : Reading α) (bytes : List UInt8) (answer : Except Defect α) : Prop :=
  ∀ rest position, AnswersAt position reading bytes rest answer

theorem Reads.answers {reading : Reading α} {bytes : List UInt8} {value : α}
    (h : Reads reading bytes value) : Answers reading bytes (.ok value) :=
  fun rest position => answersAt_of_runAt (h rest position)

theorem Answers.reads {reading : Reading α} {bytes : List UInt8} {answer : Except Defect α}
    (h : Answers reading bytes answer) (value : α) (hvalue : answer = .ok value) :
    Reads reading bytes value :=
  fun rest position => (h rest position).reads value hvalue

theorem Answers.fst_runAt {reading : Reading α} {bytes : List UInt8} {answer : Except Defect α}
    (h : Answers reading bytes answer) (rest : List UInt8) (position : Nat) :
    (runAt reading ⟨bytes ++ rest, position⟩).1 = answer :=
  (h rest position).fst_runAt

theorem answers_ofExcept (answer : Except Defect α) : Answers (ofExcept answer) [] answer :=
  fun _ _ => answersAt_of_runAt (runAt_ofExcept answer _)

theorem Answers.bind {reading : Reading α} {next : α → Reading β} {front back : List UInt8}
    {answer : Except Defect α} {further : α → Except Defect β} (h : Answers reading front answer)
    (hnext : ∀ value, Answers (next value) back (further value)) :
    Answers (reading >>= next) (front ++ back) (answer >>= further) :=
  fun rest position => (h (back ++ rest) position).bind fun value _ => hnext value rest _

/-- A first step that takes bytes and cannot fail. -/
theorem Reads.bind_answers {reading : Reading α} {next : α → Reading β} {front back : List UInt8}
    {value : α} {answer : Except Defect β} (h : Reads reading front value)
    (hnext : Answers (next value) back answer) :
    Answers (reading >>= next) (front ++ back) answer := by
  intro rest position
  have hfirst := h.answers (back ++ rest) position
  have hboth : AnswersAt position (reading >>= next) (front ++ back) rest
      (.ok value >>= fun _ => answer) := by
    refine hfirst.bind fun result hresult => ?_
    cases hresult
    exact hnext rest _
  exact hboth

/-- A last step that may fail and takes no bytes. -/
theorem Answers.bind_ofExcept {reading : Reading α} {bytes : List UInt8} {answer : Except Defect α}
    (h : Answers reading bytes answer) (further : α → Except Defect β) :
    Answers (do ofExcept (further (← reading))) bytes (answer >>= further) := by
  have hboth := h.bind fun value => answers_ofExcept (further value)
  rwa [List.append_nil] at hboth

/-- An index and what is looked up under it. -/
theorem answers_lookup {find : UInt16 → Except Defect α} {index : UInt16} {next : α → Reading β}
    {bytes : List UInt8} {further : α → Except Defect β}
    (hnext : ∀ value, Answers (next value) bytes (further value)) :
    Answers (do next (← ofExcept (find (← u2)))) (Writing.u2 index ++ bytes)
      (find index >>= further) :=
  (reads_u2 index).bind_answers ((answers_ofExcept (find index)).bind hnext)

/-- A last step that takes no bytes. -/
theorem Answers.map {reading : Reading α} {bytes : List UInt8} {answer : Except Defect α}
    (h : Answers reading bytes answer) (change : α → β) :
    Answers (do return change (← reading)) bytes (do return change (← answer)) := by
  have hboth := h.bind fun value => (reads_pure (change value)).answers
  rwa [List.append_nil] at hboth

theorem answers_many {reading : Reading α} {write : ι → List UInt8} {read : ι → Except Defect α}
    {items : List ι} (h : ∀ item ∈ items, Answers reading (write item) (read item)) :
    Answers (many items.length reading) (items.flatMap write) (items.mapM read) := by
  induction items with
  | nil => exact (reads_pure []).answers
  | cons item rest ih =>
      obtain ⟨hfirst, hrest⟩ := List.forall_mem_cons.mp h
      rw [List.flatMap_cons, List.mapM_cons]
      exact hfirst.bind fun first => (ih hrest).map (first :: ·)

theorem answers_counted {reading : Reading α} {write : ι → List UInt8}
    {read : ι → Except Defect α} {items : List ι} (hcount : items.length < 2 ^ 16)
    (h : ∀ item ∈ items, Answers reading (write item) (read item)) :
    Answers (counted reading) (Writing.counted write items) (items.mapM read) := by
  refine (reads_u2 _).bind_answers ?_
  rw [UInt16.toNat_ofNat_of_lt' hcount]
  exact answers_many h

theorem answers_fold {reading : α → Reading α} {write : ι → List UInt8}
    {change : α → ι → Except Defect α} {items : List ι}
    (h : ∀ item ∈ items, ∀ state, Answers (reading state) (write item) (change state item))
    (state : α) :
    Answers (fold reading items.length state) (items.flatMap write) (items.foldlM change state) := by
  induction items generalizing state with
  | nil => exact (reads_pure state).answers
  | cons item rest ih =>
      obtain ⟨hfirst, hrest⟩ := List.forall_mem_cons.mp h
      rw [List.flatMap_cons, List.foldlM_cons]
      exact (hfirst state).bind (ih hrest)

theorem answers_foldCounted {reading : α → Reading α} {write : ι → List UInt8}
    {change : α → ι → Except Defect α} {items : List ι} (hcount : items.length < 2 ^ 16)
    (h : ∀ item ∈ items, ∀ state, Answers (reading state) (write item) (change state item))
    (state : α) :
    Answers (foldCounted reading state) (Writing.counted write items)
      (items.foldlM change state) := by
  refine (reads_u2 _).bind_answers ?_
  rw [UInt16.toNat_ofNat_of_lt' hcount]
  exact answers_fold h state

/-- A value decides how what follows is read. -/
theorem Answers.runOn_bind {reading : Reading α} {front : List UInt8} {answer : Except Defect α}
    (h : Answers reading front answer) (next : α → Reading β) (rest : List UInt8) :
    runOn (reading >>= next) (front ++ rest) = (do
      let value ← answer
      (runAt (next value) ⟨rest, 0 + front.length⟩).1) := by
  have hfirst := h.fst_runAt rest 0
  rw [runOn, Cursor.start, runAt_bind]
  cases answer with
  | ok value =>
      rw [h.reads value rfl]
      rfl
  | error defect =>
      generalize runAt reading ⟨front ++ rest, 0⟩ = run at hfirst
      obtain ⟨answer, after⟩ := run
      cases hfirst
      rfl

/-! ## What was taken -/

theorem runAt_bind_eq_ok {reading : Reading α} {next : α → Reading β} {cursor after : Cursor}
    {result : β} : runAt (reading >>= next) cursor = (.ok result, after) ↔
      ∃ value between, runAt reading cursor = (.ok value, between) ∧
        runAt (next value) between = (.ok result, after) := by
  rw [runAt_bind]
  obtain ⟨answer, between⟩ := runAt reading cursor
  cases answer with
  | error defect => simp
  | ok value => simp

/-- Whether all that a reader takes to give a value has a shape that may depend on the value. -/
def Takes (reading : Reading α) (shape : α → List UInt8 → Prop) : Prop :=
  ∀ cursor value after, runAt reading cursor = (.ok value, after) →
    ∃ front, cursor.rest = front ++ after.rest ∧ shape value front

theorem Takes.bind {reading : Reading α} {next : α → Reading β} {first : α → List UInt8 → Prop}
    {second : α → β → List UInt8 → Prop} {shape : β → List UInt8 → Prop}
    (h : Takes reading first) (hnext : ∀ value, Takes (next value) (second value))
    (hjoin : ∀ value result front back, first value front → second value result back →
      shape result (front ++ back)) : Takes (reading >>= next) shape := by
  intro cursor result after hrun
  obtain ⟨value, between, hfirst, hsecond⟩ := runAt_bind_eq_ok.mp hrun
  obtain ⟨front, hcursor, hfront⟩ := h cursor value between hfirst
  obtain ⟨back, hbetween, hback⟩ := hnext value between result after hsecond
  refine ⟨front ++ back, ?_, hjoin value result front back hfront hback⟩
  rw [hcursor, hbetween, List.append_assoc]

theorem takes_pure (value : α) :
    Takes (pure value) fun given front => given = value ∧ front = [] := by
  intro cursor given after hrun
  rw [runAt_pure] at hrun
  cases hrun
  exact ⟨[], rfl, rfl, rfl⟩

theorem takes_ofExcept (answer : Except Defect α) :
    Takes (ofExcept answer) fun value front => answer = .ok value ∧ front = [] := by
  intro cursor value after hrun
  rw [runAt_ofExcept] at hrun
  cases hrun
  exact ⟨[], rfl, rfl, rfl⟩

theorem takes_throw (defect : Defect) (shape : α → List UInt8 → Prop) :
    Takes (throw defect : Reading α) shape := by
  intro cursor value after hrun
  rw [runAt_throw] at hrun
  cases hrun

/-- A last step that takes no bytes. -/
theorem Takes.map {reading : Reading α} {shape : List UInt8 → Prop}
    (h : Takes reading fun _ front => shape front) (change : α → β) :
    Takes (do return change (← reading)) fun _ front => shape front := by
  refine h.bind (fun value => takes_pure (change value)) ?_
  rintro value _ front _ hfront ⟨rfl, rfl⟩
  rwa [List.append_nil]

/-- A last step that may fail and takes no bytes. -/
theorem Takes.bind_ofExcept {reading : Reading α} {shape : List UInt8 → Prop}
    (h : Takes reading fun _ front => shape front) (further : α → Except Defect β) :
    Takes (do ofExcept (further (← reading))) fun _ front => shape front := by
  refine h.bind (fun value => takes_ofExcept (further value)) ?_
  rintro value _ front _ hfront ⟨-, rfl⟩
  rwa [List.append_nil]

theorem takes_bytes (count : Nat) :
    Takes (bytes count) fun content front => front = content ∧ content.length = count := by
  intro cursor content after hrun
  rw [runAt_bytes] at hrun
  split at hrun
  · next henough =>
      cases hrun
      exact ⟨_, (List.take_append_drop count cursor.rest).symm, rfl, List.length_take_of_le henough⟩
  · cases hrun

/-- The number that bytes write is written as them. -/
theorem written_bigEndian (content : List UInt8) :
    Writing.bigEndian content.length (bigEndian content) = content := by
  induction content using List.reverseRecOn with
  | nil => rfl
  | append_singleton front last ih =>
      have hlast := last.toNat_lt
      have hfront : (bigEndian front * 256 + last.toNat) / 256 = bigEndian front := by omega
      have hbyte : UInt8.ofNat (bigEndian front * 256 + last.toNat) = last := by
        rw [← UInt8.toNat_inj, UInt8.toNat_ofNat']
        omega
      rw [bigEndian_concat, List.length_append, List.length_singleton, Writing.bigEndian, hfront, ih,
        hbyte]

theorem bigEndian_lt (content : List UInt8) : bigEndian content < 256 ^ content.length := by
  rw [← written_bigEndian content, bigEndian_written, Writing.length_bigEndian]
  exact Nat.mod_lt _ (Nat.pow_pos (by omega))

theorem u2_bigEndian {content : List UInt8} (h : content.length = 2) :
    Writing.u2 (UInt16.ofNat (bigEndian content)) = content := by
  have hsmall := bigEndian_lt content
  rw [h] at hsmall
  rw [Writing.u2, UInt16.toNat_ofNat_of_lt' hsmall, ← h, written_bigEndian]

theorem takes_u2 : Takes u2 fun word front => front = Writing.u2 word := by
  refine (takes_bytes 2).bind (fun content => takes_pure _) ?_
  rintro _ word content _ ⟨rfl, hlength⟩ ⟨rfl, rfl⟩
  rw [List.append_nil, u2_bigEndian hlength]

theorem takes_u4 : Takes u4 fun word front => front = Writing.u4 word := by
  refine (takes_bytes 4).bind (fun content => takes_pure _) ?_
  rintro _ word content _ ⟨rfl, hlength⟩ ⟨rfl, rfl⟩
  have hsmall := bigEndian_lt content
  rw [hlength] at hsmall
  rw [List.append_nil, Writing.u4, UInt32.toNat_ofNat_of_lt' hsmall, ← hlength, written_bigEndian]

theorem takes_sizedBlock :
    Takes sizedBlock fun content front =>
      content.length < 2 ^ 32 ∧ front = Writing.block content := by
  refine takes_u4.bind (fun length => takes_bytes _) ?_
  rintro length content _ _ rfl ⟨rfl, hlength⟩
  rw [Writing.block, hlength, UInt32.ofNat_toNat]
  exact ⟨length.toNat_lt, rfl⟩

/-- Two words that are passed over. -/
theorem takes_skip_four :
    Takes (skip 4) fun _ front =>
      ∃ first second, front = Writing.u2 first ++ Writing.u2 second := by
  refine (takes_bytes 4).bind (fun content => takes_pure ()) ?_
  rintro _ _ content _ ⟨rfl, hlength⟩ ⟨-, rfl⟩
  have hfirst : (content.take 2).length = 2 := by simp [hlength]
  have hsecond : (content.drop 2).length = 2 := by simp [hlength]
  refine ⟨UInt16.ofNat (bigEndian (content.take 2)), UInt16.ofNat (bigEndian (content.drop 2)), ?_⟩
  rw [List.append_nil, u2_bigEndian hfirst, u2_bigEndian hsecond, List.take_append_drop]

/-- An index whose meaning is looked up. -/
theorem takes_lookup (find : UInt16 → Except Defect α) :
    Takes (do ofExcept (find (← u2))) fun _ front => ∃ index, front = Writing.u2 index := by
  refine takes_u2.bind (fun index => takes_ofExcept (find index)) ?_
  rintro index _ _ _ rfl ⟨-, rfl⟩
  exact ⟨index, List.append_nil _⟩

theorem takes_many {reading : Reading α} {write : ι → List UInt8}
    (h : Takes reading fun _ front => ∃ item, front = write item) (count : Nat) :
    Takes (many count reading) fun _ front =>
      ∃ items : List ι, items.length = count ∧ front = items.flatMap write := by
  induction count with
  | zero =>
      intro cursor values after hrun
      obtain ⟨front, hcursor, -, rfl⟩ := takes_pure [] cursor values after hrun
      exact ⟨[], hcursor, [], rfl, rfl⟩
  | succ count ih =>
      refine h.bind (fun first => ih.map (first :: ·)) ?_
      rintro first values _ _ ⟨item, rfl⟩ ⟨items, rfl, rfl⟩
      exact ⟨item :: items, rfl, rfl⟩

theorem takes_counted {reading : Reading α} {write : ι → List UInt8}
    (h : Takes reading fun _ front => ∃ item, front = write item) :
    Takes (counted reading) fun _ front =>
      ∃ items : List ι, items.length < 2 ^ 16 ∧ front = Writing.counted write items := by
  refine takes_u2.bind (fun count => takes_many h count.toNat) ?_
  rintro count values _ _ rfl ⟨items, hlength, rfl⟩
  refine ⟨items, hlength ▸ count.toNat_lt, ?_⟩
  rw [Writing.counted, hlength, UInt16.ofNat_toNat]

theorem takes_fold {reading : α → Reading α} {write : ι → List UInt8}
    (h : ∀ state, Takes (reading state) fun _ front => ∃ item, front = write item) (count : Nat)
    (state : α) :
    Takes (fold reading count state) fun _ front =>
      ∃ items : List ι, items.length = count ∧ front = items.flatMap write := by
  induction count generalizing state with
  | zero =>
      intro cursor last after hrun
      obtain ⟨front, hcursor, -, rfl⟩ := takes_pure state cursor last after hrun
      exact ⟨[], hcursor, [], rfl, rfl⟩
  | succ count ih =>
      refine (h state).bind ih ?_
      rintro first last _ _ ⟨item, rfl⟩ ⟨items, rfl, rfl⟩
      exact ⟨item :: items, rfl, rfl⟩

theorem takes_foldCounted {reading : α → Reading α} {write : ι → List UInt8}
    (h : ∀ state, Takes (reading state) fun _ front => ∃ item, front = write item) (state : α) :
    Takes (foldCounted reading state) fun _ front =>
      ∃ items : List ι, items.length < 2 ^ 16 ∧ front = Writing.counted write items := by
  refine takes_u2.bind (fun count => takes_fold h count.toNat state) ?_
  rintro count last _ _ rfl ⟨items, hlength, rfl⟩
  refine ⟨items, hlength ▸ count.toNat_lt, ?_⟩
  rw [Writing.counted, hlength, UInt16.ofNat_toNat]

/-! ## What is given -/

/-- Whether all values that a reader gives have a property. -/
def Gives (property : α → Prop) (reading : Reading α) : Prop :=
  ∀ cursor value, (runAt reading cursor).1 = .ok value → property value

theorem gives_pure {property : α → Prop} {value : α} (h : property value) :
    Gives property (pure value) := by
  intro cursor given hgiven
  cases hgiven
  exact h

theorem gives_throw (property : α → Prop) (defect : Defect) :
    Gives property (throw defect : Reading α) := nofun

theorem gives_ofExcept {property : α → Prop} {answer : Except Defect α}
    (h : ∀ value, answer = .ok value → property value) : Gives property (ofExcept answer) := by
  intro cursor value hvalue
  rw [runAt_ofExcept] at hvalue
  exact h value hvalue

theorem Gives.bind {first : α → Prop} {property : β → Prop} {reading : Reading α}
    {next : α → Reading β} (h : Gives first reading)
    (hnext : ∀ value, first value → Gives property (next value)) :
    Gives property (reading >>= next) := by
  intro cursor result hresult
  rw [runAt_bind] at hresult
  cases hrun : runAt reading cursor with
  | mk answer after =>
      rw [hrun] at hresult
      cases answer with
      | error defect => cases hresult
      | ok value => exact hnext value (h cursor value (congrArg Prod.fst hrun)) after result hresult

/-- A first step that does not matter. -/
theorem gives_bind {property : β → Prop} {reading : Reading α} {next : α → Reading β}
    (hnext : ∀ value, Gives property (next value)) : Gives property (reading >>= next) :=
  have hany : Gives (fun _ => True) reading := fun _ _ _ => trivial
  hany.bind fun value _ => hnext value

/-! ## What can be taken again -/

/-- Whether a reader gives a value again for the bytes that it took to give it. -/
def Rereads (reading : Reading α) : Prop :=
  Takes reading fun value front => Reads reading front value

theorem Rereads.bind {reading : Reading α} {next : α → Reading β} (h : Rereads reading)
    (hnext : ∀ value, Rereads (next value)) : Rereads (reading >>= next) :=
  Takes.bind h hnext fun _ _ _ _ hfront hback => hfront.bind hback

theorem rereads_pure (value : α) : Rereads (pure value) := by
  intro cursor given after hrun
  obtain ⟨front, hcursor, rfl, rfl⟩ := takes_pure value cursor given after hrun
  exact ⟨[], hcursor, reads_pure given⟩

theorem rereads_throw (defect : Defect) : Rereads (throw defect : Reading α) := takes_throw defect _

theorem rereads_ofExcept (answer : Except Defect α) : Rereads (ofExcept answer) := by
  intro cursor value after hrun
  obtain ⟨front, hcursor, hanswer, rfl⟩ := takes_ofExcept answer cursor value after hrun
  exact ⟨[], hcursor, reads_ofExcept hanswer⟩

theorem rereads_bytes (count : Nat) : Rereads (bytes count) := by
  intro cursor content after hrun
  obtain ⟨front, hcursor, rfl, hlength⟩ := takes_bytes count cursor content after hrun
  exact ⟨front, hcursor, reads_bytes hlength⟩

theorem rereads_u1 : Rereads u1 := (rereads_bytes 1).bind fun _ => rereads_pure _

theorem rereads_u2 : Rereads u2 := (rereads_bytes 2).bind fun _ => rereads_pure _

theorem rereads_u4 : Rereads u4 := (rereads_bytes 4).bind fun _ => rereads_pure _

theorem rereads_i4 : Rereads i4 := rereads_u4.bind fun _ => rereads_pure _

theorem rereads_u8 : Rereads u8 :=
  rereads_u4.bind fun _ => rereads_u4.bind fun _ => rereads_pure _

theorem rereads_i8 : Rereads i8 := rereads_u8.bind fun _ => rereads_pure _

end Reading

namespace Pool

open Reading

theorem rereads_one (kind : UInt16 → Constant) : Rereads (do return kind (← u2)) :=
  rereads_u2.bind fun _ => rereads_pure _

theorem rereads_two (kind : UInt16 → UInt16 → Constant) : Rereads (do return kind (← u2) (← u2)) :=
  rereads_u2.bind fun _ => rereads_one _

theorem rereads_readConstant (tag : UInt8) (entry : Nat) : Rereads (readConstant tag entry) := by
  unfold readConstant
  split
  · exact rereads_u2.bind fun _ => (rereads_bytes _).bind fun _ =>
      (rereads_ofExcept _).bind fun _ => rereads_pure _
  · exact rereads_i4.bind fun _ => rereads_pure _
  · exact rereads_u4.bind fun _ => rereads_pure _
  · exact rereads_i8.bind fun _ => rereads_pure _
  · exact rereads_u8.bind fun _ => rereads_pure _
  · exact rereads_one .classInfo
  · exact rereads_one .string
  · exact rereads_two .fieldRef
  · exact rereads_two .methodRef
  · exact rereads_two .interfaceMethodRef
  · exact rereads_two .nameAndType
  · exact rereads_u1.bind fun kind => rereads_one (.methodHandle kind)
  · exact rereads_one .methodType
  · exact rereads_two .dynamic
  · exact rereads_two .invokeDynamic
  · exact rereads_one .moduleInfo
  · exact rereads_one .packageInfo
  · exact rereads_throw _

theorem rereads_readEntries (count bound : Nat) (entries : Array Constant) :
    Rereads (readEntries count bound entries) := by
  induction bound generalizing entries with
  | zero => exact rereads_pure entries
  | succ bound ih =>
      unfold readEntries
      split
      · exact rereads_u1.bind fun tag => (rereads_readConstant tag _).bind fun _ => ih _
      · exact rereads_pure entries

theorem rereads_read : Rereads read := by
  refine rereads_u2.bind fun count => (rereads_readEntries _ _ _).bind fun entries => ?_
  dsimp only
  split
  · exact (rereads_throw _).bind fun _ => rereads_pure _
  · exact rereads_pure _

end Pool

end ModCatalog.ClassFile
