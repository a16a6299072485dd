import Mathlib.Data.List.Basic
import Yomochi.Foundation.Table

/-! Tenants of one system: when everything a tenant is answered, and everything that is stored for
it, is as if the others were not there. -/

namespace Yomochi.Foundation

variable {Tenant State Request Answer : Type}

structure Service (Tenant State Request Answer : Type) where
  serve : Tenant → Request → State → State × Answer

namespace Service

variable (service : Service Tenant State Request Answer)

def after : State → List (Tenant × Request) → State
  | s, [] => s
  | s, (tenant, request) :: requests => after (service.serve tenant request s).1 requests

def answers : State → List (Tenant × Request) → List (Tenant × Answer)
  | _, [] => []
  | s, (tenant, request) :: requests =>
      (tenant, (service.serve tenant request s).2) ::
        answers (service.serve tenant request s).1 requests

def Admitted (admits : Tenant → Request → State → Prop) : State → List (Tenant × Request) → Prop
  | _, [] => True
  | s, (tenant, request) :: requests =>
      admits tenant request s ∧ Admitted admits (service.serve tenant request s).1 requests

/-- A tenant's own requests do with its share alone what they do with everything, and the requests
of the others leave its share as it is. -/
structure Confines (admits : Tenant → Request → State → Prop) (share : Tenant → State → State) :
    Prop where
  own : ∀ tenant request s, admits tenant request s →
    service.serve tenant request (share tenant s) =
      (share tenant (service.serve tenant request s).1, (service.serve tenant request s).2)
  other : ∀ tenant observer request s, admits tenant request s → tenant ≠ observer →
    share observer (service.serve tenant request s).1 = share observer s

variable [DecidableEq Tenant]

def ofTenant {Entry : Type} (tenant : Tenant) (entries : List (Tenant × Entry)) :
    List (Tenant × Entry) :=
  entries.filter fun entry => decide (entry.1 = tenant)

theorem of_tenant_own {Entry : Type} {tenant : Tenant} (entry : Entry)
    (entries : List (Tenant × Entry)) :
    ofTenant tenant ((tenant, entry) :: entries) = (tenant, entry) :: ofTenant tenant entries :=
  List.filter_cons_of_pos (decide_eq_true rfl)

theorem of_tenant_other {Entry : Type} {tenant other : Tenant} (different : other ≠ tenant)
    (entry : Entry) (entries : List (Tenant × Entry)) :
    ofTenant tenant ((other, entry) :: entries) = ofTenant tenant entries :=
  List.filter_cons_of_neg (by simpa using different)

variable {service} {admits : Tenant → Request → State → Prop} {share : Tenant → State → State}

/-- In any order of everyone's requests, a tenant is answered what it would be answered alone. -/
theorem answers_alone (confines : service.Confines admits share) (tenant : Tenant) {s : State}
    {requests : List (Tenant × Request)} (admitted : service.Admitted admits s requests) :
    ofTenant tenant (service.answers s requests) =
      service.answers (share tenant s) (ofTenant tenant requests) := by
  induction requests generalizing s with
  | nil => rfl
  | cons entry requests ih =>
      obtain ⟨sender, request⟩ := entry
      have later := ih admitted.2
      by_cases own : sender = tenant
      · subst own
        have alone := confines.own sender request s admitted.1
        rw [answers, of_tenant_own, of_tenant_own, answers, alone, later]
      · have kept := confines.other sender tenant request s admitted.1 own
        rw [answers, of_tenant_other own, of_tenant_other own, later, kept]

/-- And its share is what its own requests leave of it. -/
theorem after_alone (confines : service.Confines admits share) (tenant : Tenant) {s : State}
    {requests : List (Tenant × Request)} (admitted : service.Admitted admits s requests) :
    share tenant (service.after s requests) =
      service.after (share tenant s) (ofTenant tenant requests) := by
  induction requests generalizing s with
  | nil => rfl
  | cons entry requests ih =>
      obtain ⟨sender, request⟩ := entry
      have later := ih admitted.2
      by_cases own : sender = tenant
      · subst own
        have alone := confines.own sender request s admitted.1
        rw [after, later, of_tenant_own, after, alone]
      · have kept := confines.other sender tenant request s admitted.1 own
        rw [after, later, of_tenant_other own, kept]

end Service

/-! Tables with an owner in each row. -/

namespace Table

variable {Key Row : Type} {key : Row → Key}

theorem ext_rows {first second : Table key} (same : first.rows = second.rows) : first = second := by
  cases first
  cases second
  cases same
  rfl

variable [DecidableEq Tenant] {owner : Row → Tenant} {table next : Table key} {tenant : Tenant}
  {row : Row}

def ownedBy (table : Table key) (owner : Row → Tenant) (tenant : Tenant) : Table key :=
  ⟨table.rows.filter fun row => decide (owner row = tenant),
    table.unique.sublist (List.filter_sublist.map key)⟩

/-- A condition that only the tenant's rows meet. -/
def OnlyOf (owner : Row → Tenant) (tenant : Tenant) (p : Row → Bool) : Prop :=
  ∀ row, p row = true → owner row = tenant

theorem filter_own {p : Row → Bool} (own : OnlyOf owner tenant p) :
    (table.ownedBy owner tenant).rows.filter p = table.rows.filter p := by
  rw [ownedBy, List.filter_filter]
  apply List.filter_congr
  intro row _
  cases met : p row with
  | false => rfl
  | true => exact decide_eq_true (own row met)

theorem any_own {p : Row → Bool} (own : OnlyOf owner tenant p) :
    (table.ownedBy owner tenant).rows.any p = table.rows.any p := by
  have same : (table.ownedBy owner tenant).rows.filter p = table.rows.filter p := filter_own own
  rw [Bool.eq_iff_iff, List.any_eq_true, List.any_eq_true]
  have member (row : Row) : row ∈ (table.ownedBy owner tenant).rows ∧ p row = true ↔
      row ∈ table.rows ∧ p row = true := by
    rw [← List.mem_filter, ← List.mem_filter, same]
  exact exists_congr member

section Updates

variable {p : Row → Bool} {f : Row → Row} {keeps : ∀ row, key (f row) = key row}

/-- An update that leaves every owner as it is changes the rows of each tenant by themselves. -/
theorem update_owned (stays : ∀ row, owner (f row) = owner row) :
    (table.updateWhere p f keeps).ownedBy owner tenant =
      (table.ownedBy owner tenant).updateWhere p f keeps := by
  apply ext_rows
  simp only [ownedBy, updateWhere, update, List.filter_map]
  congr 1
  apply List.filter_congr
  intro row _
  simp only [Function.comp_apply]
  split
  · rw [stays]
  · rfl

theorem update_other {sender : Tenant} (own : OnlyOf owner sender p) (different : sender ≠ tenant)
    (stays : ∀ row, owner (f row) = owner row) :
    (table.updateWhere p f keeps).ownedBy owner tenant = table.ownedBy owner tenant := by
  rw [update_owned stays]
  apply ext_rows
  refine (List.map_congr_left fun row member => ?_).trans (List.map_id _)
  apply if_neg
  intro met
  have mine : owner row = tenant := of_decide_eq_true (List.mem_filter.mp member).2
  exact different ((own row met).symm.trans mine)

theorem delete_owned :
    (table.delete p).ownedBy owner tenant = (table.ownedBy owner tenant).delete p := by
  apply ext_rows
  simp only [ownedBy, delete, List.filter_filter]
  apply List.filter_congr
  intro row _
  exact Bool.and_comm _ _

theorem delete_other {sender : Tenant} (own : OnlyOf owner sender p)
    (different : sender ≠ tenant) :
    (table.delete p).ownedBy owner tenant = table.ownedBy owner tenant := by
  rw [delete_owned]
  apply ext_rows
  apply List.filter_eq_self.mpr
  intro row member
  have mine : owner row = tenant := of_decide_eq_true (List.mem_filter.mp member).2
  cases met : p row with
  | false => rfl
  | true => exact absurd ((own row met).symm.trans mine) different

end Updates

variable [DecidableEq Key]

theorem insert_own (fresh : key row ∉ table.rows.map key) (own : owner row = tenant) :
    ∃ next, table.insert row = some next ∧
      (table.ownedBy owner tenant).insert row = some (next.ownedBy owner tenant) := by
  have absent : key row ∉ (table.ownedBy owner tenant).rows.map key := fun member =>
    fresh ((List.filter_sublist.map key).subset member)
  refine ⟨⟨table.rows ++ [row], ?_⟩, dif_neg fresh, ?_⟩
  · rw [List.map_append]
    exact List.nodup_append.mpr ⟨table.unique, List.nodup_singleton _, by simpa using fresh⟩
  · rw [insert, dif_neg absent]
    apply congrArg some
    apply ext_rows
    simp [ownedBy, own]

theorem insert_other (inserted : table.insert row = some next) (other : owner row ≠ tenant) :
    next.ownedBy owner tenant = table.ownedBy owner tenant := by
  apply ext_rows
  simp [ownedBy, (insert_eq_some inserted).2, other]

end Table

end Yomochi.Foundation
