import LabBridge.Agent.TaskScheduler
import LabBridge.Library.PaddedNumerals
import LabBridge.Library.Sorting

/-!
# The order of the due executions

The scheduler sorts the executions that are due by their slot and the id of their task. Two
numbers are compared by their value and any other pair of ids by its bytes, so that a text that
stands between the bytes of two numbers closes a circle with them.
-/

namespace LabBridge.Agent

open ByteText Sorting

/-! ## Numbers as ids -/

theorem isDigit_of_isNumericId {value : Bytes} (h : isNumericId value = true) :
    ∀ b ∈ value, IsDigit b := by
  simp only [isNumericId, Bool.and_eq_true, List.all_eq_true, decide_eq_true_eq] at h
  exact h.2

/-- Leading zeros do not change the number. -/
theorem numeralValue_dropWhile (value : Bytes) :
    numeralValue (value.dropWhile (· == 48)) = numeralValue value := by
  induction value with
  | nil => rfl
  | cons b value ih =>
    by_cases hzero : b = 48
    · have hdrop : (b :: value).dropWhile (· == 48) = value.dropWhile (· == 48) := by simp [hzero]
      have hvalue : (48 : UInt8).toNat - 48 = 0 := rfl
      rw [hdrop, ih, numeralValue_cons, hzero, hvalue, Nat.zero_mul, Nat.zero_add]
    · rw [List.dropWhile_cons_of_neg (by simpa using hzero)]

theorem numeralValue_normalizedNumericId (value : Bytes) :
    numeralValue (normalizedNumericId value) = numeralValue value := by
  have hdrop := numeralValue_dropWhile value
  rw [normalizedNumericId]
  cases hdigits : value.dropWhile (· == 48) with
  | nil =>
    rw [← hdrop, hdigits]
    rfl
  | cons b digits => rw [← hdrop, hdigits]

theorem isDigit_of_mem_normalizedNumericId {value : Bytes} (h : ∀ b ∈ value, IsDigit b) :
    ∀ b ∈ normalizedNumericId value, IsDigit b := by
  rw [normalizedNumericId]
  cases hdigits : value.dropWhile (· == 48) with
  | nil =>
    intro b hb
    have hzero : text "0" = [byte '0'] := rfl
    rw [hzero] at hb
    rw [List.mem_singleton.mp hb]
    decide
  | cons b digits =>
    intro c hc
    have hmem : c ∈ value.dropWhile (· == 48) := hdigits ▸ hc
    exact h c ((List.dropWhile_sublist _).mem hmem)

/-- A number with more than one digit does not start with a zero. -/
theorem pow_le_numeralValue {value : Bytes} (h : ∀ b ∈ value, IsDigit b)
    (hlength : 1 < (normalizedNumericId value).length) :
    10 ^ ((normalizedNumericId value).length - 1) ≤ numeralValue value := by
  rw [← numeralValue_normalizedNumericId]
  have hdigits := isDigit_of_mem_normalizedNumericId h
  rw [normalizedNumericId] at *
  cases hdrop : value.dropWhile (· == 48) with
  | nil =>
    rw [hdrop] at hlength
    exact absurd hlength (by decide)
  | cons b digits =>
    simp only [hdrop] at hdigits ⊢
    have hfirst : b ≠ 48 := by
      have hne : value.dropWhile (· == 48) ≠ [] := by simp [hdrop]
      have hhead := List.head_dropWhile_not (· == (48 : UInt8)) hne
      simpa [hdrop] using hhead
    have hb := digit_lt_ten (hdigits b (by simp))
    have hpositive : 1 ≤ b.toNat - 48 := by
      have hbyte : b.toNat ≠ (48 : UInt8).toNat := fun heq => hfirst (UInt8.toNat_inj.mp heq)
      have hnumber : (48 : UInt8).toNat = 48 := rfl
      omega
    rw [numeralValue_cons, List.length_cons, Nat.add_sub_cancel]
    exact (Nat.le_mul_of_pos_left _ hpositive).trans (Nat.le_add_right _ _)

theorem normalizedNumericId_ne_nil (value : Bytes) : 0 < (normalizedNumericId value).length := by
  rw [normalizedNumericId]
  cases value.dropWhile (· == 48) with
  | nil => decide
  | cons b digits => simp

/-- The shorter of two numbers without leading zeros is the smaller one. -/
theorem numeralValue_lt_of_length {left right : Bytes} (hleft : ∀ b ∈ left, IsDigit b)
    (hright : ∀ b ∈ right, IsDigit b)
    (hlength : (normalizedNumericId left).length < (normalizedNumericId right).length) :
    numeralValue left < numeralValue right := by
  have hsmall := numeralValue_lt (isDigit_of_mem_normalizedNumericId hleft)
  rw [numeralValue_normalizedNumericId] at hsmall
  have hnonempty := normalizedNumericId_ne_nil left
  have hlarge := pow_le_numeralValue hright (by omega)
  have hpow : 10 ^ (normalizedNumericId left).length ≤
      10 ^ ((normalizedNumericId right).length - 1) :=
    Nat.pow_le_pow_right (by omega) (by omega)
  exact lt_of_lt_of_le hsmall (hpow.trans hlarge)

/-- Two numbers are compared by their value, equal ones by their bytes. -/
theorem taskIdLess_numbers {left right : Bytes} (hleft : isNumericId left = true)
    (hright : isNumericId right = true) : taskIdLess left right = true ↔
      numeralValue left < numeralValue right ∨
        numeralValue left = numeralValue right ∧ left < right := by
  have hleftDigits := isDigit_of_isNumericId hleft
  have hrightDigits := isDigit_of_isNumericId hright
  simp only [taskIdLess, hleft, hright, true_and]
  by_cases hsame : normalizedNumericId left = normalizedNumericId right
  · have hvalue : numeralValue left = numeralValue right := by
      rw [← numeralValue_normalizedNumericId, hsame, numeralValue_normalizedNumericId]
    simp [hsame, hvalue]
  · rw [if_pos hsame]
    by_cases hlength : (normalizedNumericId left).length = (normalizedNumericId right).length
    · have hlt := lt_iff_numeralValue_lt hlength (isDigit_of_mem_normalizedNumericId hleftDigits)
        (isDigit_of_mem_normalizedNumericId hrightDigits)
      have hne : numeralValue left ≠ numeralValue right := by
        intro heq
        apply hsame
        apply eq_of_numeralValue_eq hlength (isDigit_of_mem_normalizedNumericId hleftDigits)
          (isDigit_of_mem_normalizedNumericId hrightDigits)
        rw [numeralValue_normalizedNumericId, numeralValue_normalizedNumericId, heq]
      rw [numeralValue_normalizedNumericId, numeralValue_normalizedNumericId] at hlt
      simp [hlength, hlt, hne]
    · rw [if_pos hlength, decide_eq_true_eq]
      constructor
      · exact fun h => .inl (numeralValue_lt_of_length hleftDigits hrightDigits h)
      · intro h
        by_contra hshorter
        have := numeralValue_lt_of_length hrightDigits hleftDigits (by omega)
        omega

/-- Ids that are not both numbers are compared by their bytes. -/
theorem taskIdLess_texts {left right : Bytes}
    (h : ¬(isNumericId left = true ∧ isNumericId right = true)) :
    taskIdLess left right = true ↔ left < right := by
  have hbranch : ¬(isNumericId left = true ∧ isNumericId right = true ∧
      normalizedNumericId left ≠ normalizedNumericId right) :=
    fun hnumeric => h ⟨hnumeric.1, hnumeric.2.1⟩
  simp only [taskIdLess, if_neg hbranch, decide_eq_true_eq]

/-! ## The order of the ids -/

/-- Different ids are always put in one order. -/
theorem distinguishes_taskIdLess : Distinguishes taskIdLess where
  irrefl a := by
    rw [← Bool.not_eq_true]
    by_cases hnumeric : isNumericId a = true ∧ isNumericId a = true
    · rw [taskIdLess_numbers hnumeric.1 hnumeric.2]
      simp [List.lt_irrefl]
    · rw [taskIdLess_texts hnumeric]
      exact List.lt_irrefl a
  asymm a b := by
    rw [← Bool.not_eq_true]
    by_cases hnumeric : isNumericId a = true ∧ isNumericId b = true
    · rw [taskIdLess_numbers hnumeric.1 hnumeric.2, taskIdLess_numbers hnumeric.2 hnumeric.1]
      rintro (hab | ⟨heq, hab⟩) (hba | ⟨_, hba⟩)
      · omega
      · omega
      · omega
      · exact List.lt_asymm hab hba
    · rw [taskIdLess_texts hnumeric, taskIdLess_texts fun h => hnumeric h.symm]
      exact List.lt_asymm
  eq a b hab hba := by
    rw [← Bool.not_eq_true] at hab hba
    by_cases hnumeric : isNumericId a = true ∧ isNumericId b = true
    · rw [taskIdLess_numbers hnumeric.1 hnumeric.2] at hab
      rw [taskIdLess_numbers hnumeric.2 hnumeric.1] at hba
      simp only [not_or, not_and] at hab hba
      have heq : numeralValue a = numeralValue b := by omega
      exact List.le_antisymm (hba.2 heq.symm) (hab.2 heq)
    · rw [taskIdLess_texts hnumeric] at hab
      rw [taskIdLess_texts fun h => hnumeric h.symm] at hba
      exact List.le_antisymm hba hab

/-- A text stands between the bytes of two numbers that their values put the other way. -/
def SplitsNumbers (ids : Set Bytes) : Prop :=
  ∃ small ∈ ids, ∃ large ∈ ids, ∃ between ∈ ids,
    isNumericId small = true ∧ isNumericId large = true ∧ isNumericId between = false ∧
      numeralValue small < numeralValue large ∧ large < between ∧ between < small

/-- Numbers have no circle: they are ordered by their value and then by their bytes. -/
theorem not_cycle_numbers {a b c : Bytes} (ha : isNumericId a = true) (hb : isNumericId b = true)
    (hc : isNumericId c = true) (hab : taskIdLess a b = true) (hbc : taskIdLess b c = true) :
    taskIdLess c a ≠ true := by
  rw [taskIdLess_numbers ha hb] at hab
  rw [taskIdLess_numbers hb hc] at hbc
  rw [Ne, taskIdLess_numbers hc ha]
  rintro (hca | ⟨heq, hca⟩)
  · omega
  · rcases hab with hab | ⟨_, hab⟩
    · omega
    · rcases hbc with hbc | ⟨_, hbc⟩
      · omega
      · exact List.lt_asymm (List.lt_trans hab hbc) hca

/-- A circle of two numbers and a text splits the numbers. -/
theorem splitsNumbers_of_cycle {ids : Set Bytes} {a b c : Bytes} (ha : a ∈ ids) (hb : b ∈ ids)
    (hc : c ∈ ids) (hna : isNumericId a = true) (hnb : isNumericId b = true)
    (hnc : isNumericId c = false) (hab : taskIdLess a b = true) (hbc : taskIdLess b c = true)
    (hca : taskIdLess c a = true) : SplitsNumbers ids := by
  rw [taskIdLess_numbers hna hnb] at hab
  rw [taskIdLess_texts (by simp [hnc])] at hbc hca
  rcases hab with hab | ⟨_, hab⟩
  · exact ⟨a, ha, b, hb, c, hc, hna, hnb, hnc, hab, hbc, hca⟩
  · exact absurd (List.lt_trans hbc hca) (List.lt_asymm hab)

/-- Three ids with two texts among them are compared by their bytes. -/
theorem not_cycle_texts {a b c : Bytes} (hab : ¬(isNumericId a = true ∧ isNumericId b = true))
    (hbc : ¬(isNumericId b = true ∧ isNumericId c = true))
    (hca : ¬(isNumericId c = true ∧ isNumericId a = true)) (hless : taskIdLess a b = true)
    (hless' : taskIdLess b c = true) : taskIdLess c a ≠ true := by
  rw [taskIdLess_texts hab] at hless
  rw [taskIdLess_texts hbc] at hless'
  rw [Ne, taskIdLess_texts hca]
  exact List.lt_asymm (List.lt_trans hless hless')

/-- The ids come in a circle exactly when a text splits two numbers. -/
theorem cycles_taskIdLess_iff (ids : Set Bytes) : Cycles taskIdLess ids ↔ SplitsNumbers ids := by
  constructor
  · rintro ⟨a, ha, b, hb, c, hc, hab, hbc, hca⟩
    cases hna : isNumericId a <;> cases hnb : isNumericId b <;> cases hnc : isNumericId c
    case true.true.true => exact absurd hca (not_cycle_numbers hna hnb hnc hab hbc)
    case true.true.false => exact splitsNumbers_of_cycle ha hb hc hna hnb hnc hab hbc hca
    case true.false.true => exact splitsNumbers_of_cycle hc ha hb hnc hna hnb hca hab hbc
    case false.true.true => exact splitsNumbers_of_cycle hb hc ha hnb hnc hna hbc hca hab
    all_goals
      exact absurd hca (not_cycle_texts (by simp [hna, hnb]) (by simp [hnb, hnc])
        (by simp [hnc, hna]) hab hbc)
  · rintro ⟨small, hsmall, large, hlarge, between, hbetween, hnumeric, hnumeric', htext, hless,
      hlow, hhigh⟩
    refine ⟨small, hsmall, large, hlarge, between, hbetween, ?_, ?_, ?_⟩
    · exact (taskIdLess_numbers hnumeric hnumeric').mpr (.inl hless)
    · exact (taskIdLess_texts (by simp [htext])).mpr hlow
    · exact (taskIdLess_texts (by simp [htext])).mpr hhigh

/-! ## The sort of the due executions -/

/-- The order of the ids is a strict weak order, and due executions of different tasks among
them have exactly one sorted order. -/
def OrdersTaskIds (ids : Set Bytes) : Prop :=
  StrictWeakOn taskIdLess ids ∧ ∀ due : List ScheduledTaskExecution,
    (∀ execution ∈ due, execution.task.id ∈ ids) → (due.map (·.task.id)).Nodup →
      StrictWeakOn dueBefore {execution | execution ∈ due} ∧
        ∃! sorted, Sorts dueBefore due sorted

/-- Executions are compared by their slot and those of one slot by their ids. -/
theorem strictWeakOn_dueBefore {due : List ScheduledTaskExecution} {ids : Set Bytes}
    (hids : ∀ execution ∈ due, execution.task.id ∈ ids) (h : StrictWeakOn taskIdLess ids) :
    StrictWeakOn dueBefore {execution | execution ∈ due} := by
  have hkey : dueBefore = byKey ScheduledTaskExecution.scheduledFor (·.task.id) taskIdLess := rfl
  rw [hkey]
  exact h.byKey hids

/-- Due executions of different tasks are all distinguished. -/
theorem eq_of_not_dueBefore {due : List ScheduledTaskExecution}
    (hnodup : (due.map (·.task.id)).Nodup) {left right : ScheduledTaskExecution}
    (hleft : left ∈ due) (hright : right ∈ due) (hbefore : dueBefore left right = false)
    (hafter : dueBefore right left = false) : left = right := by
  apply List.inj_on_of_nodup_map hnodup hleft hright
  have hkey : dueBefore = byKey ScheduledTaskExecution.scheduledFor (·.task.id) taskIdLess := rfl
  rw [hkey] at hbefore hafter
  have hsame := same_of_incomparable hbefore hafter
  exact distinguishes_taskIdLess.eq _ _ hsame.2.1 hsame.2.2

/-- The ids are ordered as the sort of the due executions needs it exactly when no text stands
between the bytes of two numbers that their values put the other way. -/
theorem orders_task_ids_iff (ids : Set Bytes) : OrdersTaskIds ids ↔ ¬SplitsNumbers ids := by
  rw [← cycles_taskIdLess_iff, ← distinguishes_taskIdLess.strictWeakOn_iff]
  constructor
  · exact And.left
  · intro h
    apply And.intro h
    intro due hids hnodup
    have hdue := strictWeakOn_dueBefore hids h
    apply And.intro hdue
    apply existsUnique_sorts hdue
    intro left hleft right hright
    exact eq_of_not_dueBefore hnodup hleft hright

/-- The ids `2`, `10` and `1a` come in a circle. -/
theorem not_orders_task_ids : ¬OrdersTaskIds Set.univ := by
  intro h
  have htrans := h.1.trans (text "2") (Set.mem_univ _) (text "10") (Set.mem_univ _) (text "1a")
    (Set.mem_univ _) (by decide) (by decide)
  exact absurd htrans (by decide)

end LabBridge.Agent
