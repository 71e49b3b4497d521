import MeshPipeline.Ending.FinalResult

/-!
# The record tells the ending that was decided
-/

namespace MeshPipeline.Ending

namespace FinalResult

/-! ## The stored form is read back -/

lemma ofValue_reviewVerdict (v : ReviewVerdict) : ReviewVerdict.ofValue v.value = some v := by
  cases v <;> rfl

lemma ofValue_reviewExecution (e : ReviewExecution) : ReviewExecution.ofValue e.value = some e := by
  cases e <;> rfl

lemma terminalOfValue_terminalValue (s : TerminalStatus) :
    terminalOfValue (terminalValue s) = some s := by
  cases s <;> rfl

/-! ## What each getter reads where the key is stored -/

section Getters

variable {d : Dict} {key : String}

lemma get_of_lookup {j : Json} (h : d.lookup key = some j) : d.get key = j := by
  simp [Dict.get, h]

lemma text_of_lookup {s default : String} (h : d.lookup key = some (.str s)) :
    d.text key default = some s := by
  simp [Dict.text, h]

lemma text?_of_lookup {s : Option String} (h : d.lookup key = some (.ofOption .str s)) :
    d.text? key = some s := by
  cases s <;> simp [Dict.text?, Dict.get, h, Json.ofOption]

lemma bool?_of_lookup {b : Option Bool} (h : d.lookup key = some (.ofOption .bool b)) :
    d.bool? key = some b := by
  cases b <;> simp [Dict.bool?, Dict.get, h, Json.ofOption]

lemma int_of_lookup {n : Int} (h : d.lookup key = some (.int n)) : d.int key = some n := by
  simp [Dict.int, Dict.get, h]

lemma truth_of_lookup {b : Bool} (h : d.lookup key = some (.bool b)) : d.truth key = b := by
  simp [Dict.truth, Dict.get, h, Json.truthy]

lemma dict_of_lookup {entries : Dict} (h : d.lookup key = some (.obj entries)) :
    d.dict key = entries := by
  simp [Dict.dict, Dict.get, h]

lemma texts_of_lookup {xs : List String} (h : d.lookup key = some (.arr (xs.map .str))) :
    d.list Json.toStr key = some xs := by
  simp only [Dict.list, Dict.get, h, Option.getD_some]
  exact Json.mapM_map (f := .str) (fun _ => rfl) xs

lemma dicts_of_lookup {xs : List Dict} (h : d.lookup key = some (.arr (xs.map .obj))) :
    d.list Json.toObj key = some xs := by
  simp only [Dict.list, Dict.get, h, Option.getD_some]
  exact Json.mapM_map (f := .obj) (fun _ => rfl) xs

lemma verdict_of_lookup {v : Option ReviewVerdict}
    (h : d.lookup "reviewer_verdict" = some (.ofOption (fun v => .str v.value) v)) :
    readVerdict d = some v := by
  cases v with
  | none => simp [readVerdict, Dict.text?, Dict.get, h, Json.ofOption]
  | some v => simp [readVerdict, Dict.text?, Dict.get, h, Json.ofOption, ofValue_reviewVerdict]

end Getters

theorem fromDict_toDict (r : FinalResult) (hversion : r.schemaVersion ∈ readableSchemaVersions)
    (hnotes : ∀ n ∈ r.notesRemarks, Text.strip n ≠ "") : fromDict (toDict r) = some r := by
  have hfilter : r.notesRemarks.filter (fun n => !decide (Text.strip n = "")) = r.notesRemarks :=
    List.filter_eq_self.mpr fun n hn => by simpa using hnotes n hn
  generalize hd : toDict r = d
  have hlook : ∀ key j, (toDict r).lookup key = some j → d.lookup key = some j := by
    rintro key j h
    rw [← hd, h]
  have hread : readVerdict d = some r.reviewerVerdict :=
    verdict_of_lookup (hlook "reviewer_verdict" _ rfl)
  simp only [fromDict, hread, get_of_lookup (hlook "schema_version" _ rfl),
    get_of_lookup (hlook "job_id" _ rfl), get_of_lookup (hlook "owner_id" _ rfl),
    get_of_lookup (hlook "status" _ rfl), text_of_lookup (hlook "engine" _ rfl),
    text_of_lookup (hlook "purpose" _ rfl), text_of_lookup (hlook "dimensionality" _ rfl),
    text?_of_lookup (hlook "requested_mesh_fidelity" _ rfl),
    text_of_lookup (hlook "effective_mesh_fidelity" _ rfl),
    text_of_lookup (hlook "mesh_fidelity_source" _ rfl),
    text_of_lookup (hlook "fidelity_policy_version" _ rfl),
    text_of_lookup (hlook "approved_snapshot_id" _ rfl),
    text_of_lookup (hlook "review_execution" _ rfl), text_of_lookup (hlook "failed_gate" _ rfl),
    bool?_of_lookup (hlook "patch_contract_ok" _ rfl),
    text_of_lookup (hlook "outcome_code" _ rfl), text?_of_lookup (hlook "failure_category" _ rfl),
    int_of_lookup (hlook "attempts" _ rfl), int_of_lookup (hlook "attempts_max" _ rfl),
    texts_of_lookup (hlook "delivered_types" _ rfl),
    dicts_of_lookup (hlook "requirement_caveats" _ rfl),
    texts_of_lookup (hlook "optional_warnings" _ rfl),
    texts_of_lookup (hlook "missing_outputs" _ rfl), text_of_lookup (hlook "finalized_at" _ rfl),
    text_of_lookup (hlook "failure_cause" _ rfl), text_of_lookup (hlook "failure_detail" _ rfl),
    text_of_lookup (hlook "failure_next_step" _ rfl), int_of_lookup (hlook "review_parked" _ rfl),
    int_of_lookup (hlook "review_truncated" _ rfl), texts_of_lookup (hlook "notes_remarks" _ rfl),
    truth_of_lookup (hlook "executor_success" _ rfl),
    truth_of_lookup (hlook "required_ready" _ rfl), dict_of_lookup (hlook "engine_ladder" _ rfl),
    dict_of_lookup (hlook "repair_lineage" _ rfl), truth_of_lookup (hlook "retry_skipped" _ rfl),
    dict_of_lookup (hlook "review_left" _ rfl)]
  simp [Json.toStr, terminalOfValue_terminalValue, ofValue_reviewExecution, hversion, r.concluded, hfilter]

/-! ## What the record is built with -/

variable {a : Accounts} {r : RecordRequest} {shown : Int}

theorem fromDict_build {result : FinalResult} (h : build a r = .ok result) :
    fromDict (toDict result) = some result := by
  have hplain : result.schemaVersion = finalResultSchemaVersion ∧ result.notesRemarks = [] := by
    unfold build at h
    dsimp only at h
    split at h
    · split at h
      · cases h
      · split at h
        · cases h
        · cases h
          exact ⟨rfl, rfl⟩
    · cases h
      exact ⟨rfl, rfl⟩
  refine fromDict_toDict result ?_ ?_
  · rw [hplain.1]
    decide
  · simp [hplain.2]

/-- A success is built unless its review failed or stopped without the caveat that says so. -/
theorem build_succeeded (hstatus : r.status = .succeeded)
    (hfailed : (review r).verdict = some .failed → r.requirementCaveats.any saysConcerns = true)
    (hstopped : (review r).execution = .failedToComplete →
      r.requirementCaveats.any saysInconclusive = true) :
    ∃ shown, build a r = .ok (succeeded r shown) := by
  refine ⟨r.attemptsMade.elim r.attempts (max 0), ?_⟩
  rw [build, if_pos hstatus, if_neg, if_neg]
  · rintro ⟨hexecution, hno⟩
    rw [hstopped hexecution] at hno
    cases hno
  · rintro ⟨hverdict, hno⟩
    rw [hfailed hverdict] at hno
    cases hno

theorem build_failed (hstatus : r.status ≠ .succeeded) :
    ∃ shown, build a r = .ok (failed a r shown) :=
  ⟨_, if_neg hstatus⟩

/-! ## The category of a failure -/

lemma accountOf_category :
    (accountOf a r).category = deriveFailureCategory r ∨
      deriveFailureCategory r = .inputRejected ∧
        (accountOf a r).category = .incompatibleRequirements := by
  unfold accountOf
  dsimp only
  split
  · exact .inl rfl
  · split
    · exact .inl rfl
    · split
      case isTrue hinput =>
        rw [hinput]
        unfold admissionAccount
        dsimp only
        split
        · exact .inr ⟨rfl, rfl⟩
        · split
          · exact .inr ⟨rfl, rfl⟩
          · split <;> exact .inl rfl
      case isFalse =>
        split <;> exact .inl rfl

/-- A review that concluded and failed is one of the last attempt, on a mesh that no gate failed. -/
lemma review_failed :
    (review r).execution = .completed ∧ (review r).verdict = some .failed ↔
      r.apiFailure = "" ∧ r.failedGate = "" ∧ r.executorSuccess = true ∧
        normVerdict r.reviewerVerdict = "FAIL" := by
  unfold review
  grind

lemma review_passed :
    (review r).execution = .completed ∧ (review r).verdict = some .passed ↔
      r.apiFailure = "" ∧ r.failedGate = "" ∧ r.executorSuccess = true ∧
        normVerdict r.reviewerVerdict = "PASS" := by
  unfold review
  grind

lemma review_stopped :
    (review r).execution = .failedToComplete ↔
      r.apiFailure ≠ "" ∧ (isReviewerMarker (bareMarker r.apiFailure) = true ∨
        normVerdict r.reviewerVerdict = "PASS" ∨ normVerdict r.reviewerVerdict = "FAIL") := by
  unfold review
  grind

/-- A review is reported as the reason only when it concluded, failed, and no gate did. -/
theorem category_reviewRejected :
    deriveFailureCategory r = .reviewRejected ↔
      r.apiFailure = "" ∧ r.failedGate = "" ∧ r.executorSuccess = true ∧
        normVerdict r.reviewerVerdict = "FAIL" := by
  have hfailed := review_failed (r := r)
  have hgate : geometryInputGate ≠ "" := by decide
  unfold deriveFailureCategory
  grind

theorem category_deliveryFailed :
    deriveFailureCategory r = .deliveryFailed ↔
      r.apiFailure = "" ∧ r.failedGate = "" ∧ r.executorSuccess = true ∧
        normVerdict r.reviewerVerdict = "PASS" ∧ r.requiredReady = false := by
  have hfailed := review_failed (r := r)
  have hpassed := review_passed (r := r)
  have hstopped := review_stopped (r := r)
  have hconcluded := (review r).concluded
  have hgate : geometryInputGate ≠ "" := by decide
  unfold deriveFailureCategory
  grind

/-- On a mesh that no gate failed, running out of time is the reason left for what the review did
not reject and what was not merely undelivered. -/
theorem category_timedOut (hgate : r.failedGate = "") (hsuccess : r.executorSuccess = true) :
    deriveFailureCategory r = .timedOut ↔
      r.pipelineTimedOut = true ∧ deriveFailureCategory r ≠ .reviewRejected ∧
        deriveFailureCategory r ≠ .deliveryFailed := by
  have hinput : geometryInputGate ≠ "" := by decide
  unfold deriveFailureCategory
  grind

end FinalResult

end MeshPipeline.Ending
