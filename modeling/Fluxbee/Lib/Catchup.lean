import Mathlib.Logic.Basic

/-! Maps brought from an old state to a new one by announcements, each of which carries the new
value of the keys it names: they may come in any order and more than once. -/
namespace Fluxbee.Catchup

variable {K V D : Type*} {old new cur cur' : K → V} {d : D} {rest : List D} {named : D → K → Prop}

/-- Every value is the new one, or the old one with an announcement still to come. -/
def Pending (old new cur : K → V) (named : D → K → Prop) (rest : List D) : Prop :=
  ∀ k, cur k = new k ∨ (cur k = old k ∧ ∃ d ∈ rest, named d k)

theorem Pending.start (hcur : ∀ k, cur k = old k)
    (hunnamed : ∀ k, (∀ d ∈ rest, ¬ named d k) → new k = old k) :
    Pending old new cur named rest := by
  intro k
  by_cases hk : ∃ d ∈ rest, named d k
  · exact .inr ⟨hcur k, hk⟩
  · left
    rw [hcur k, hunnamed k fun d hd hn => hk ⟨d, hd, hn⟩]

theorem Pending.done (h : Pending old new cur named []) (k : K) : cur k = new k := by
  rcases h k with hnew | ⟨-, d, hd, -⟩
  · exact hnew
  · cases hd

theorem Pending.step (h : Pending old new cur named (d :: rest))
    (hnamed : ∀ k, named d k → cur' k = new k)
    (hleft : ∀ k, ¬ named d k → cur' k = new k ∨ cur' k = cur k) :
    Pending old new cur' named rest := by
  intro k
  by_cases hk : named d k
  · exact .inl (hnamed k hk)
  · rcases hleft k hk with hnew | hcur
    · exact .inl hnew
    · rw [hcur]
      refine (h k).imp_right fun ⟨hold, x, hx, hn⟩ => ⟨hold, x, ?_, hn⟩
      rcases List.mem_cons.mp hx with rfl | hx
      · exact absurd hn hk
      · exact hx

theorem Pending.skip (h : Pending old new cur named (d :: rest)) (hnamed : ∀ k, ¬ named d k) :
    Pending old new cur named rest :=
  h.step (fun k hk => absurd hk (hnamed k)) fun _ _ => .inr rfl

end Fluxbee.Catchup
