import Mosaic.SettlementAtomicity

namespace Mosaic
open CanonicalJson Effects

variable [Crypto]

namespace SettlementLedger

/-- The evidence of every slash that is recorded is used. -/
def Evidenced (s : SettlementLedger) : Prop := ∀ epoch account amount evidenceId,
  s.Recorded (eventFor s.toLedgerConfig "SLASH" epoch account amount evidenceId []) → evidenceId ∈ s.slashEvidenceIds

/-- Evidence stays used, and a slash that is new in `t` has its evidence there. -/
structure Marks (s t : SettlementLedger) : Prop where
  config : t.toLedgerConfig = s.toLedgerConfig
  evidence : s.slashEvidenceIds ⊆ t.slashEvidenceIds
  slashes : ∀ epoch account amount evidenceId,
    t.Recorded (eventFor s.toLedgerConfig "SLASH" epoch account amount evidenceId []) →
      s.Recorded (eventFor s.toLedgerConfig "SLASH" epoch account amount evidenceId []) ∨ evidenceId ∈ t.slashEvidenceIds

variable {s t : SettlementLedger}

instance : Std.Refl Marks := ⟨fun _ => ⟨rfl, Finset.Subset.refl _, fun _ _ _ _ => Or.inl⟩⟩

instance : IsTrans SettlementLedger Marks where
  trans s t u first second := by
    refine ⟨second.config.trans first.config, first.evidence.trans second.evidence, ?_⟩
    intro epoch account amount evidenceId recorded
    rcases second.slashes epoch account amount evidenceId (first.config ▸ recorded) with old | used
    · refine (first.slashes epoch account amount evidenceId (first.config ▸ old)).imp_right ?_
      exact fun used => second.evidence used
    · exact Or.inr used

theorem Marks.evidenced (marks : s.Marks t) (evidenced : s.Evidenced) : t.Evidenced := by
  intro epoch account amount evidenceId recorded
  rw [marks.config] at recorded
  rcases marks.slashes epoch account amount evidenceId recorded with old | used
  · exact marks.evidence (evidenced epoch account amount evidenceId old)
  · exact used

theorem Marks.of_same (config : t.toLedgerConfig = s.toLedgerConfig) (evidence : s.slashEvidenceIds ⊆ t.slashEvidenceIds)
    (events : t.events = s.events) : s.Marks t := by
  refine ⟨config, evidence, fun epoch account amount evidenceId recorded => Or.inl ?_⟩
  unfold Recorded at recorded ⊢
  rwa [events] at recorded

section Operations
variable {kind account relatedId bondId : String} {epoch amount : Int} {metadata : List (String × String)}

theorem position_marks : Guarantees Marks s (position bondId) (fun _ _ => True) := by
  refine .get_bind ?_
  split
  · exact .pure trivial
  · exact .throw _

theorem credit_marks : Guarantees Marks s (credit account amount) (fun _ _ => True) :=
  .raiseIf_bind fun _ => .update (.of_same rfl (Finset.Subset.refl _) rfl) trivial

theorem debit_marks : Guarantees Marks s (debit account amount) (fun _ _ => True) :=
  .get_bind <| .raiseIf_bind fun _ => .update (.of_same rfl (Finset.Subset.refl _) rfl) trivial

/-- An event is no slash, or it comes when its evidence is used. -/
theorem recordEvent_marks (free : CollisionFree) (fair : kind = "SLASH" → relatedId ∈ s.slashEvidenceIds) :
    Guarantees Marks s (recordEvent kind epoch account amount relatedId metadata) (fun _ _ => True) := by
  refine .get_bind <| .raiseIf_bind fun _ => Guarantees.bind (Q := fun _ _ => True) (.update ?_ trivial)
    fun _ _ _ _ => .pure trivial
  refine ⟨rfl, Finset.Subset.refl _, fun epoch' account' amount' evidenceId recorded => ?_⟩
  rcases (recorded_addEvent _ _ _).mp recorded with same | old
  · obtain ⟨rfl, -, -, -, rfl⟩ := eventFor_inj free same
    exact Or.inr (fair rfl)
  · exact Or.inl old

theorem recordEvent_marks_of_ne (free : CollisionFree) (other : kind ≠ "SLASH") :
    Guarantees Marks s (recordEvent kind epoch account amount relatedId metadata) (fun _ _ => True) :=
  recordEvent_marks free fun same => absurd same other

theorem update_marks {f : SettlementLedger → SettlementLedger} (config : (f s).toLedgerConfig = s.toLedgerConfig)
    (evidence : (f s).slashEvidenceIds = s.slashEvidenceIds) (events : (f s).events = s.events) :
    Guarantees Marks s (modify f : PyLedger PUnit) (fun _ _ => True) :=
  .update (.of_same config evidence.symm.subset events) trivial

theorem rewardFrom_marks (free : CollisionFree) {total totalWeight distributed : Int} {entries : List (String × Int)} :
    Guarantees Marks s (rewardFrom epoch total totalWeight distributed entries) (fun _ _ => True) := by
  induction entries generalizing s distributed with
  | nil => exact .pure trivial
  | cons entry entries ih =>
    exact position_marks.bind fun _ _ _ _ => credit_marks.bind fun _ _ _ _ =>
      (recordEvent_marks_of_ne free (by decide)).bind fun _ _ _ _ => ih.bind fun _ _ _ _ => .pure trivial

theorem slash_marks (free : CollisionFree) {evidenceId : String} {reporter : Option String} :
    Guarantees Marks s (slash bondId amount epoch evidenceId reporter) (fun _ _ => True) := by
  refine .raiseIf_bind fun _ => .get_bind <| .raiseIf_bind fun _ => position_marks.bind fun found t _ _ => ?_
  refine Guarantees.bind (Q := fun _ u => evidenceId ∈ u.slashEvidenceIds)
    (.update (.of_same rfl (Finset.subset_insert _ _) rfl) (Finset.mem_insert_self _ _)) fun _ u _ used => ?_
  refine Guarantees.bind (Q := fun _ u => evidenceId ∈ u.slashEvidenceIds)
    (.update (.of_same rfl (Finset.Subset.refl _) rfl) used) fun _ u _ used => ?_
  refine (recordEvent_marks free fun _ => used).bind fun _ _ _ _ => credit_marks.bind fun _ _ _ _ => ?_
  split
  · exact credit_marks.bind fun _ _ _ _ => (recordEvent_marks_of_ne free (by decide)).bind fun _ _ _ _ => .pure trivial
  · exact .pure trivial

end Operations

theorem run_marks (free : CollisionFree) (call : SettlementCall) (s : SettlementLedger) :
    Guarantees Marks s call.run (fun _ _ => True) := by
  have single : ∀ {x : PyLedger SettlementEvent}, Guarantees Marks s x (fun _ _ => True) →
      Guarantees Marks s (([·]) <$> x) (fun _ _ => True) :=
    fun marks => marks.bind fun _ _ _ _ => .pure trivial
  cases call with
  | fund account amount epoch sourceId =>
    exact single (.raiseIf_bind fun _ => (recordEvent_marks_of_ne free (by decide)).bind fun _ _ _ _ =>
      credit_marks.bind fun _ _ _ _ =>
      .pure trivial)
  | bond b currentEpoch =>
    refine single (.raiseIf_bind fun _ => .get_bind <| .raiseIf_bind fun _ => .raiseIf_bind fun _ => .raiseIf_bind fun _ =>
      debit_marks.bind fun _ _ _ _ => ?_)
    exact (update_marks rfl rfl rfl).bind fun _ _ _ _ => recordEvent_marks_of_ne free (by decide)
  | requestUnbond bondId currentEpoch delay =>
    refine single (position_marks.bind fun _ _ _ _ => .raiseIf_bind fun _ => ?_)
    exact (update_marks rfl rfl rfl).bind fun _ _ _ _ => recordEvent_marks_of_ne free (by decide)
  | withdraw bondId currentEpoch =>
    refine single (position_marks.bind fun _ _ _ _ => .raiseIf_bind fun _ => .raiseIf_bind fun _ => ?_)
    exact (update_marks rfl rfl rfl).bind fun _ _ _ _ => credit_marks.bind fun _ _ _ _ =>
      recordEvent_marks_of_ne free (by decide)
  | slash bondId amount epoch evidenceId reporter => exact slash_marks free
  | chargeFee payer amount epoch txId =>
    exact single (.raiseIf_bind fun _ => debit_marks.bind fun _ _ _ _ => .get_bind <| credit_marks.bind fun _ _ _ _ =>
      recordEvent_marks_of_ne free (by decide))
  | distributeRewards epoch total weights =>
    refine .get_bind <| .raiseIf_bind fun _ => .raiseIf_bind fun _ => debit_marks.bind fun _ _ _ _ =>
      (rewardFrom_marks free).bind fun _ _ _ _ => ?_
    exact (update_marks rfl rfl rfl).bind fun _ _ _ _ => .pure trivial

/-- In every run the ledger has the evidence of the slashes that it recorded. -/
theorem evidenced_of_reached (free : CollisionFree) {config : LedgerConfig} (reached : SettlementCall.Reached config s) :
    s.Evidenced :=
  reached.invariant (fun _ _ _ _ recorded => absurd rfl recorded) fun _ call _ evidenced =>
    (run_marks free call _).moves.evidenced evidenced

end SettlementLedger

end Mosaic
