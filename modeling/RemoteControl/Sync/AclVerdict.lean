import RemoteControl.Sync.AclPreview

/-!
# What the rules decide

HBBS sorts the rules that match and looks at the first one. Said without sorting:

> of the matching rules with the smallest priority one allows, and none denies (`Admits`).

This depends on which rules there are and not on their order, and a rule has a say only if no
matching rule comes before it.
-/

namespace RemoteControl.Sync

open Lib List

variable {rule v w : AclRuleState} {d : AuthDecision} {connectionType : Int32}
  {l m : List AclRuleState} {target : String} {rules : Table AclRuleState.id}

/-- The matching rules admit the user. -/
def Admits (matching : List AclRuleState) : Prop :=
  ∃ w ∈ matching, (∀ v ∈ matching, w.priority ≤ v.priority) ∧ w.effect = "allow" ∧
    ∀ v ∈ matching, v.priority = w.priority → v.effect ≠ "deny"

theorem AclRuleState.rank_le :
    v.rank ≤ w.rank ↔ v.priority < w.priority ∨
      v.priority = w.priority ∧ (w.effect = "deny" → v.effect = "deny") := by
  unfold rank
  rw [Prod.Lex.toLex_le_toLex, Int32.lt_iff_toInt_lt, ← Int32.toInt_inj]
  refine or_congr_right (and_congr_right fun _ => ?_)
  by_cases hv : v.effect = "deny" <;> by_cases hw : w.effect = "deny" <;> simp [hv, hw]

/-- Where a denial comes first, no other rule has the least rank. -/
theorem least_allows_iff {matching : List AclRuleState} :
    (∃ w, Least AclRuleState.rank matching w ∧ w.effect = "allow") ↔ Admits matching := by
  constructor
  · rintro ⟨w, ⟨hmem, hleast⟩, hallow⟩
    refine ⟨w, hmem, fun v hv => ?_, hallow, fun v hv hprio hdeny => ?_⟩
    · rcases AclRuleState.rank_le.mp (hleast v hv) with hlt | ⟨heq, -⟩
      · exact Int32.le_of_lt hlt
      · exact Int32.le_of_eq heq
    · rcases AclRuleState.rank_le.mp (hleast v hv) with hlt | ⟨-, himp⟩
      · rw [hprio] at hlt
        exact Int32.lt_irrefl hlt
      · rw [himp hdeny] at hallow
        exact absurd hallow (by decide)
  · rintro ⟨w, hmem, hle, hallow, hnone⟩
    refine ⟨w, ⟨hmem, fun v hv => AclRuleState.rank_le.mpr ?_⟩, hallow⟩
    rcases Int32.lt_or_eq_of_le (hle v hv) with hlt | heq
    · exact .inl hlt
    · exact .inr ⟨heq, fun hdeny => absurd hdeny (hnone v hv heq.symm)⟩

/-- Rules that come after a matching one make no difference. -/
theorem Admits.of_agree (hw : w ∈ l) (hagree : ∀ v, v.priority ≤ w.priority → (v ∈ l ↔ v ∈ m))
    (h : Admits l) : Admits m := by
  obtain ⟨a, ha, hle, hallow, hnone⟩ := h
  have haw : a.priority ≤ w.priority := hle w hw
  refine ⟨a, (hagree a haw).mp ha, fun v hv => ?_, hallow, fun v hv hprio => ?_⟩
  · by_cases hvw : v.priority ≤ w.priority
    · exact hle v ((hagree v hvw).mpr hv)
    · exact Int32.le_trans haw (Int32.le_of_lt (Int32.not_le.mp hvw))
  · exact hnone v ((hagree v (by rw [hprio]; exact haw)).mpr hv) hprio

/-- Without a denial the rest admits as well. -/
theorem Admits.of_deny (hdeny : rule.effect = "deny") (hsub : ∀ v ∈ l, v ∈ m)
    (hnew : ∀ v ∈ m, v ∈ l ∨ v = rule) (h : Admits m) : Admits l := by
  obtain ⟨a, ha, hle, hallow, hnone⟩ := h
  have hal : a ∈ l := by
    refine (hnew a ha).resolve_right ?_
    rintro rfl
    rw [hdeny] at hallow
    exact absurd hallow (by decide)
  exact ⟨a, hal, fun v hv => hle v (hsub v hv), hallow, fun v hv => hnone v (hsub v hv)⟩

variable {st : CacheState}

def AllowOrDeny (rules : Table AclRuleState.id) : Prop :=
  ∀ w ∈ rules.rows, w.effect = "allow" ∨ w.effect = "deny"

theorem authorizeAcl_iff (heffect : AllowOrDeny st.aclRules) (d : AuthDecision) (target : String)
    (connectionType : Int32) :
    st.authorizeAcl d target connectionType = .ok () ↔ d.role = "admin" ∨ st.aclRules.rows = [] ∨
      Admits (st.matchingRules d target connectionType) := by
  rw [authorizeAcl_ok_iff d target connectionType heffect, least_allows_iff]

theorem authorizeAcl_error_iff (st : CacheState) (d : AuthDecision) (target : String)
    (connectionType : Int32) :
    st.authorizeAcl d target connectionType = .error .accessDenied ↔
      ¬ st.authorizeAcl d target connectionType = .ok () := by
  unfold CacheState.authorizeAcl
  dsimp only
  repeat' split
  all_goals simp

/-- A verdict is one of two. -/
theorem authorizeAcl_congr {st st' : CacheState}
    (h : st'.authorizeAcl d target connectionType = .ok () ↔
      st.authorizeAcl d target connectionType = .ok ()) :
    st'.authorizeAcl d target connectionType = st.authorizeAcl d target connectionType := by
  by_cases hok : st.authorizeAcl d target connectionType = .ok ()
  · rw [hok, h.mpr hok]
  · rw [(authorizeAcl_error_iff st d target connectionType).mpr hok]
    exact (authorizeAcl_error_iff st' d target connectionType).mpr fun hok' => hok (h.mp hok')

theorem mem_matchingRules_withRules (hmem : v ∈ rules.rows ↔ v ∈ st.aclRules.rows) :
    v ∈ ({ st with aclRules := rules } : CacheState).matchingRules d target connectionType ↔
      v ∈ st.matchingRules d target connectionType := by
  unfold CacheState.matchingRules
  rw [mem_filter, mem_filter, hmem]
  rfl

section

variable (heffect : AllowOrDeny st.aclRules)

include heffect

theorem authorizeAcl_of_perm (hperm : rules.rows.Perm st.aclRules.rows) (d : AuthDecision)
    (target : String) (connectionType : Int32) :
    ({ st with aclRules := rules } : CacheState).authorizeAcl d target connectionType
      = st.authorizeAcl d target connectionType := by
  have heffect' : AllowOrDeny rules := fun w hw => heffect w (hperm.mem_iff.mp hw)
  have hmatching : ∀ v, v ∈ ({ st with aclRules := rules } : CacheState).matchingRules d target
      connectionType ↔ v ∈ st.matchingRules d target connectionType :=
    fun v => mem_matchingRules_withRules hperm.mem_iff
  have hadmits : Admits (({ st with aclRules := rules } : CacheState).matchingRules d target
      connectionType) ↔ Admits (st.matchingRules d target connectionType) := by
    unfold Admits
    simp only [hmatching]
  refine authorizeAcl_congr ?_
  rw [@authorizeAcl_iff { st with aclRules := rules } heffect', authorizeAcl_iff heffect, hadmits]
  refine or_congr_right (or_congr_left ?_)
  exact ⟨fun h => List.Perm.eq_nil (h ▸ hperm.symm), fun h => List.Perm.eq_nil (h ▸ hperm)⟩

theorem authorizeAcl_put_deny (hdeny : rule.effect = "deny")
    (hnew : st.aclRules.get? rule.id = none)
    (hrefused : st.authorizeAcl d target connectionType ≠ .ok ()) :
    ({ st with aclRules := st.aclRules.put rule } : CacheState).authorizeAcl d target
      connectionType ≠ .ok () := by
  have hrows : (st.aclRules.put rule).rows = st.aclRules.rows ++ [rule] := by
    rw [← Table.insert_eq_put hnew, Table.rows_insert hnew]
  have heffect' : AllowOrDeny (st.aclRules.put rule) := by
    intro w hw
    rw [hrows] at hw
    rcases mem_append.mp hw with hw | hw
    · exact heffect w hw
    · exact mem_singleton.mp hw ▸ .inr hdeny
  rw [Ne, authorizeAcl_iff heffect] at hrefused
  rw [Ne, @authorizeAcl_iff { st with aclRules := st.aclRules.put rule } heffect']
  rintro (hadmin | hempty | hadmits)
  · exact hrefused (.inl hadmin)
  · rw [hrows] at hempty
    exact append_ne_nil_of_right_ne_nil _ (cons_ne_nil _ _) hempty
  · refine hrefused (.inr (.inr (hadmits.of_deny hdeny ?_ ?_)))
    · intro v hv
      obtain ⟨hmem, hcovers⟩ := mem_filter.mp hv
      refine mem_filter.mpr ⟨?_, hcovers⟩
      rw [hrows]
      exact mem_append_left _ hmem
    · intro v hv
      obtain ⟨hmem, hcovers⟩ := mem_filter.mp hv
      rw [hrows] at hmem
      rcases mem_append.mp hmem with hmem | hmem
      · exact .inl (mem_filter.mpr ⟨hmem, hcovers⟩)
      · exact .inr (mem_singleton.mp hmem)

theorem authorizeAcl_of_agree (heffect' : AllowOrDeny rules)
    (hw : w ∈ st.matchingRules d target connectionType)
    (hagree : ∀ v, v.priority ≤ w.priority → (v ∈ rules.rows ↔ v ∈ st.aclRules.rows)) :
    ({ st with aclRules := rules } : CacheState).authorizeAcl d target connectionType
      = st.authorizeAcl d target connectionType := by
  have hmatching : ∀ v, v.priority ≤ w.priority →
      (v ∈ st.matchingRules d target connectionType ↔
        v ∈ ({ st with aclRules := rules } : CacheState).matchingRules d target connectionType) :=
    fun v hv => (mem_matchingRules_withRules (hagree v hv)).symm
  have hw' := (hmatching w (Int32.le_refl _)).mp hw
  have hrows : st.aclRules.rows ≠ [] := ne_nil_of_mem (mem_filter.mp hw).1
  have hrows' : rules.rows ≠ [] := ne_nil_of_mem (mem_filter.mp hw').1
  refine authorizeAcl_congr ?_
  rw [@authorizeAcl_iff { st with aclRules := rules } heffect', authorizeAcl_iff heffect]
  refine or_congr_right ⟨?_, ?_⟩
  · rintro (hempty | hadmits)
    · exact absurd hempty hrows'
    · exact .inr (hadmits.of_agree hw' fun v hv => (hmatching v hv).symm)
  · rintro (hempty | hadmits)
    · exact absurd hempty hrows
    · exact .inr (hadmits.of_agree hw hmatching)

end

/-- The sample rule allows; the other denies, with the same priority. -/
def tiedCache : CacheState :=
  { ruledCache sampleRule with
    aclRules := (ruledCache sampleRule).aclRules.put
      { sampleRule.view with id := "rule-2", effect := "deny" } }

end RemoteControl.Sync
