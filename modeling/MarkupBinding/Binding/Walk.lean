/-!
# Walks

A walk changes a value step by step, reports on the way, and may stop at a fault. What it has
changed before the fault stays changed, so a walk always has a value: the one it reached. Steps are
put one behind the other by `andThen`, or by `chain` where they work on different values.

A chain stops at the first fault of its parts (`fault_chain`, `fault_chain_eq_none_iff`), and its
reports are those of the parts that were reached (`mem_reports_chain`). Along `forEach`, what every
step keeps is kept (`forEach_value`), and where the fault of a step hangs on its item alone, the
walk stops at the first item that has one (`fault_forEach`).
-/

set_option autoImplicit false
set_option relaxedAutoImplicit false

namespace MarkupBinding

/-- The outcome of a walk: the value reached, the reports in order, and the fault that stopped it.
-/
structure Walk (Report Fault α : Type) where
  value : α
  reports : List Report
  fault : Option Fault

namespace Walk

variable {Report Fault α β : Type}

/-- The walk that does nothing. -/
def done (value : α) : Walk Report Fault α :=
  ⟨value, [], none⟩

/-- The walk that stops at once. -/
def stop (value : α) (fault : Fault) : Walk Report Fault α :=
  ⟨value, [], some fault⟩

/-- The walk that only reports. -/
def report (value : α) (entry : Report) : Walk Report Fault α :=
  ⟨value, [entry], none⟩

/-- The walk with its value changed. -/
def map (f : α → β) (w : Walk Report Fault α) : Walk Report Fault β :=
  ⟨f w.value, w.reports, w.fault⟩

/-- Goes on from the value reached; where the walk stopped, `stopped` says what its value means for
the whole. -/
def chain (w : Walk Report Fault α) (stopped : α → β) (next : α → Walk Report Fault β) :
    Walk Report Fault β :=
  match w.fault with
  | some fault => ⟨stopped w.value, w.reports, some fault⟩
  | none => ⟨(next w.value).value, w.reports ++ (next w.value).reports, (next w.value).fault⟩

/-- Goes on from the value reached, unless the walk stopped. -/
def andThen (w : Walk Report Fault α) (next : α → Walk Report Fault α) : Walk Report Fault α :=
  w.chain id next

/-- The steps for the items of a list, one behind the other. -/
def forEach {ι : Type} (step : ι → α → Walk Report Fault α) :
    List ι → α → Walk Report Fault α
  | [], value => done value
  | i :: rest, value => (step i value).andThen (forEach step rest)

/-- The value of a walk that reached its end, or the fault. -/
def result (w : Walk Report Fault α) : Except Fault α :=
  match w.fault with
  | some fault => .error fault
  | none => .ok w.value

section Laws

@[simp] theorem value_done (value : α) : (done value : Walk Report Fault α).value = value := rfl

@[simp] theorem reports_done (value : α) : (done value : Walk Report Fault α).reports = [] := rfl

@[simp] theorem fault_done (value : α) : (done value : Walk Report Fault α).fault = none := rfl

@[simp] theorem value_stop (value : α) (fault : Fault) :
    (stop value fault : Walk Report Fault α).value = value := rfl

@[simp] theorem reports_stop (value : α) (fault : Fault) :
    (stop value fault : Walk Report Fault α).reports = [] := rfl

@[simp] theorem fault_stop (value : α) (fault : Fault) :
    (stop value fault : Walk Report Fault α).fault = some fault := rfl

@[simp] theorem value_report (value : α) (entry : Report) :
    (report value entry : Walk Report Fault α).value = value := rfl

@[simp] theorem reports_report (value : α) (entry : Report) :
    (report value entry : Walk Report Fault α).reports = [entry] := rfl

@[simp] theorem fault_report (value : α) (entry : Report) :
    (report value entry : Walk Report Fault α).fault = none := rfl

@[simp] theorem value_map (f : α → β) (w : Walk Report Fault α) : (w.map f).value = f w.value := rfl

@[simp] theorem reports_map (f : α → β) (w : Walk Report Fault α) :
    (w.map f).reports = w.reports := rfl

@[simp] theorem fault_map (f : α → β) (w : Walk Report Fault α) : (w.map f).fault = w.fault := rfl

/-- A chain stops where its first part stops, else where the second does. -/
theorem fault_chain (w : Walk Report Fault α) (stopped : α → β)
    (next : α → Walk Report Fault β) :
    (w.chain stopped next).fault = w.fault.or (next w.value).fault := by
  cases hfault : w.fault with
  | none => simp [chain, hfault]
  | some fault => simp [chain, hfault]

/-- A chain reaches its end when both parts do. -/
theorem fault_chain_eq_none_iff (w : Walk Report Fault α) (stopped : α → β)
    (next : α → Walk Report Fault β) :
    (w.chain stopped next).fault = none ↔ w.fault = none ∧ (next w.value).fault = none := by
  rw [fault_chain, Option.or_eq_none_iff]

/-- A fault of a chain is one of the first part, or one of the second after the first reached its
end. -/
theorem fault_chain_eq_some_iff (w : Walk Report Fault α) (stopped : α → β)
    (next : α → Walk Report Fault β) (fault : Fault) :
    (w.chain stopped next).fault = some fault ↔
      w.fault = some fault ∨ w.fault = none ∧ (next w.value).fault = some fault := by
  rw [fault_chain, Option.or_eq_some_iff]

/-- The value of a chain whose first part reached its end. -/
theorem value_chain {w : Walk Report Fault α} (hfault : w.fault = none) (stopped : α → β)
    (next : α → Walk Report Fault β) : (w.chain stopped next).value = (next w.value).value := by
  simp [chain, hfault]

/-- The reports of a chain whose first part reached its end. -/
theorem reports_chain {w : Walk Report Fault α} (hfault : w.fault = none) (stopped : α → β)
    (next : α → Walk Report Fault β) :
    (w.chain stopped next).reports = w.reports ++ (next w.value).reports := by
  simp [chain, hfault]

/-- What the first part reports, the chain reports. -/
theorem reports_subset_chain (w : Walk Report Fault α) (stopped : α → β)
    (next : α → Walk Report Fault β) : w.reports ⊆ (w.chain stopped next).reports := by
  cases hfault : w.fault with
  | none =>
    rw [reports_chain hfault]
    exact List.subset_append_left _ _
  | some fault =>
    rw [chain, hfault]
    exact List.Subset.refl _

/-- What the second part reports, the chain reports if the first part reached its end. -/
theorem reports_next_subset_chain {w : Walk Report Fault α} (hfault : w.fault = none)
    (stopped : α → β) (next : α → Walk Report Fault β) :
    (next w.value).reports ⊆ (w.chain stopped next).reports := by
  rw [reports_chain hfault]
  exact List.subset_append_right _ _

/-- A report of a chain comes from one of its parts. -/
theorem mem_reports_chain {w : Walk Report Fault α} {stopped : α → β}
    {next : α → Walk Report Fault β} {entry : Report}
    (hentry : entry ∈ (w.chain stopped next).reports) :
    entry ∈ w.reports ∨ w.fault = none ∧ entry ∈ (next w.value).reports := by
  cases hfault : w.fault with
  | none =>
    rw [chain, hfault] at hentry
    rcases List.mem_append.1 hentry with hfirst | hsecond
    · exact Or.inl hfirst
    · exact Or.inr ⟨rfl, hsecond⟩
  | some fault =>
    rw [chain, hfault] at hentry
    exact Or.inl hentry

/-- The result of a walk that reached its end is the value it reached. -/
theorem result_eq_ok_iff {w : Walk Report Fault α} {value : α} :
    w.result = .ok value ↔ w.fault = none ∧ w.value = value := by
  rw [result]
  cases w.fault with
  | none => simp
  | some fault => simp

/-- What holds of the value reached and is kept from there on holds at the end. -/
theorem andThen_value {w : Walk Report Fault α} {next : α → Walk Report Fault α} (kept : α → Prop)
    (hw : kept w.value) (hnext : ∀ a, kept a → kept (next a).value) :
    kept (w.andThen next).value := by
  cases hfault : w.fault with
  | none => simpa [andThen, chain, hfault] using hnext w.value hw
  | some fault => simpa [andThen, chain, hfault] using hw

/-- What holds of the value at the outset and is kept by every step holds at the end. -/
theorem forEach_value {ι : Type} {step : ι → α → Walk Report Fault α} (kept : α → Prop) :
    ∀ (items : List ι) (value : α), (∀ i ∈ items, ∀ a, kept a → kept (step i a).value) →
      kept value → kept (forEach step items value).value := by
  intro items
  induction items with
  | nil => intro value _ hvalue; exact hvalue
  | cons i rest ih =>
    intro value hstep hvalue
    have hfirst : kept (step i value).value := hstep i List.mem_cons_self value hvalue
    have hrest := ih (step i value).value (fun j hj ↦ hstep j (List.mem_cons_of_mem i hj)) hfirst
    cases hfault : (step i value).fault with
    | none => simpa [forEach, andThen, chain, hfault] using hrest
    | some fault => simpa [forEach, andThen, chain, hfault] using hfirst

/-- Where the fault of a step hangs on its item alone, the walk stops at the first item that has
one. -/
theorem fault_forEach {ι : Type} {step : ι → α → Walk Report Fault α} (faultOf : ι → Option Fault)
    (hstep : ∀ i a, (step i a).fault = faultOf i) :
    ∀ (items : List ι) (value : α), (forEach step items value).fault = items.findSome? faultOf := by
  intro items
  induction items with
  | nil => intro value; rfl
  | cons i rest ih =>
    intro value
    rw [forEach, andThen, fault_chain, hstep, ih, List.findSome?_cons]
    cases faultOf i with
    | none => rfl
    | some fault => rfl

/-- A report on the way comes from a step. -/
theorem mem_reports_forEach {ι : Type} {step : ι → α → Walk Report Fault α} {entry : Report} :
    ∀ (items : List ι) (value : α), entry ∈ (forEach step items value).reports →
      ∃ i ∈ items, ∃ a, entry ∈ (step i a).reports := by
  intro items
  induction items with
  | nil => intro value hentry; simp [forEach] at hentry
  | cons i rest ih =>
    intro value hentry
    rcases mem_reports_chain hentry with hfirst | ⟨_, hsecond⟩
    · exact ⟨i, List.mem_cons_self, value, hfirst⟩
    · obtain ⟨j, hj, a, ha⟩ := ih _ hsecond
      exact ⟨j, List.mem_cons_of_mem i hj, a, ha⟩

end Laws

end Walk

end MarkupBinding
