import Mathlib.Logic.Relation
import Std.Data.ExtTreeMap

/-!
Tables whose entries carry a version.

A table is well versioned along a run when no entry disappears and an entry changes
what it means only together with its version.
-/

namespace PriorityFabric.Lib.Versions

variable {K V M : Type} [Ord K] [Std.TransOrd K] (version : V → Nat) (meaning : V → M)

/-- One change: each entry keeps its version and meaning, or gets the next version and
another meaning. -/
def Stepped (table table' : Std.ExtTreeMap K V) : Prop :=
  ∀ (k : K) (v : V), table[k]? = some v → ∃ v', table'[k]? = some v' ∧
    (version v' = version v ∧ meaning v' = meaning v ∨
      version v' = version v + 1 ∧ meaning v' ≠ meaning v)

/-- Any number of changes: versions do not decrease, and one version has one meaning. -/
def Later (table table' : Std.ExtTreeMap K V) : Prop :=
  ∀ (k : K) (v : V), table[k]? = some v → ∃ v', table'[k]? = some v' ∧
    version v ≤ version v' ∧ (version v' = version v → meaning v' = meaning v)

variable {version meaning} {table table' table'' : Std.ExtTreeMap K V}

theorem Stepped.refl (table : Std.ExtTreeMap K V) : Stepped version meaning table table :=
  fun _ v h => ⟨v, h, .inl ⟨rfl, rfl⟩⟩

theorem Stepped.insert [Std.LawfulEqOrd K] {k : K} {v' : V}
    (h : ∀ v, table[k]? = some v →
      version v' = version v ∧ meaning v' = meaning v ∨
        version v' = version v + 1 ∧ meaning v' ≠ meaning v) :
    Stepped version meaning table (table.insert k v') := by
  intro other v hv
  rw [Std.ExtTreeMap.getElem?_insert]
  split
  · rename_i heq
    have hkey := Std.LawfulEqOrd.eq_of_compare heq
    subst hkey
    exact ⟨v', rfl, h v hv⟩
  · exact ⟨v, hv, .inl ⟨rfl, rfl⟩⟩

theorem Later.refl (table : Std.ExtTreeMap K V) : Later version meaning table table :=
  fun _ v h => ⟨v, h, Nat.le_refl _, fun _ => rfl⟩

theorem Later.tail (h : Later version meaning table table')
    (hstep : Stepped version meaning table' table'') : Later version meaning table table'' := by
  intro k v hv
  obtain ⟨v', hv', hle, hsame⟩ := h k v hv
  obtain ⟨v'', hv'', hmoved⟩ := hstep k v' hv'
  refine ⟨v'', hv'', ?_, ?_⟩
  · rcases hmoved with ⟨hversion, -⟩ | ⟨hversion, -⟩
    · omega
    · omega
  · intro hequal
    rcases hmoved with ⟨hversion, hmeaning⟩ | ⟨hversion, -⟩
    · rw [hmeaning]
      exact hsame (by omega)
    · omega

/-- What every step of a run does to a table, the run does any number of times. -/
theorem later_of_run {σ : Type} {step : σ → σ → Prop} (view : σ → Std.ExtTreeMap K V)
    (hstep : ∀ s s', step s s' → Stepped version meaning (view s) (view s')) {s s' : σ}
    (hrun : Relation.ReflTransGen step s s') : Later version meaning (view s) (view s') := by
  induction hrun with
  | refl => exact .refl _
  | tail _ hlast ih => exact ih.tail (hstep _ _ hlast)

end PriorityFabric.Lib.Versions
