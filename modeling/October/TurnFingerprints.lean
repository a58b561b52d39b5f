import October.JsonTexts
import October.RepeatedTurns

/-!
Fingerprints of tool turns. A fingerprint joins names and JSON texts with marks that
also occur inside them, but a name without a colon ends at the first one and a JSON
text tells where it ends, so only the same calls have the same fingerprint.
-/

namespace October.TurnFingerprints

open JournaledTurns JsonTexts LoopTurns RepeatedTurns SelfDelimiting

def nameAndInput (call : ToolCall) : String × Value := (call.name, call.input)

/-- A call to a tool whose name has no colon, with a JSON value as its input. -/
def Plain (call : ToolCall) : Prop := ':' ∉ call.name.toList ∧ IsJson call.input

def callText (p : List Char × Value) : List Char := p.1 ++ ':' :: text p.2

theorem toList_toolFingerprint (calls : List ToolCall) :
    (toolFingerprint calls).toList =
      separated '|' callText (calls.map (fun c => (c.name.toList, c.input))) := by
  rw [← intercalate_eq_separated, List.map_map, toolFingerprint, String.toList_intercalate,
    List.map_map]
  have hcall : String.toList ∘ (fun c : ToolCall => c.name ++ ":" ++ c.input.display) =
      callText ∘ (fun c => (c.name.toList, c.input)) := by
    funext c
    simp [callText, text]
  rw [hcall]
  rfl

/-- The text of a call ends where no letter of a number follows. -/
theorem told_callText {call : ToolCall} (h : Plain call) :
    Told callText (fun p => (∀ c ∈ p.1, c ≠ ':') ∧ IsJson p.2) (StopsAt isNumeric)
      (call.name.toList, call.input) := by
  have hname : ∀ c ∈ call.name.toList, c ≠ ':' := by
    rintro c hc rfl
    exact h.1 hc
  exact told_pair (told_word hname) (fun rest => stopsAt_cons rest (by simp)) (told_text h.2)

theorem letters_inj : Function.Injective (fun p : String × Value => (p.1.toList, p.2)) := by
  intro p q h
  obtain ⟨hname, hinput⟩ := Prod.mk.inj h
  exact Prod.ext (String.toList_inj.mp hname) hinput

/-- The texts of calls, with bars between them, tell the calls. -/
theorem callTexts_inj {a b : List ToolCall} (ha : ∀ call ∈ a, Plain call)
    (hb : ∀ call ∈ b, Plain call)
    (h : separated '|' callText (a.map (fun c => (c.name.toList, c.input))) =
      separated '|' callText (b.map (fun c => (c.name.toList, c.input)))) :
    a.map nameAndInput = b.map nameAndInput := by
  have hothers : ∀ calls : List ToolCall, (∀ call ∈ calls, Plain call) →
      ∀ p ∈ calls.map (fun c => (c.name.toList, c.input)),
        (∀ c ∈ p.1, c ≠ ':') ∧ IsJson p.2 := by
    intro calls hcalls p hp
    obtain ⟨call, hcall, rfl⟩ := List.mem_map.mp hp
    exact ⟨fun c hc hcolon => (hcalls call hcall).1 (hcolon ▸ hc), (hcalls call hcall).2⟩
  have hcode : ∀ p ∈ a.map (fun c => (c.name.toList, c.input)),
      Told callText (fun p => (∀ c ∈ p.1, c ≠ ':') ∧ IsJson p.2) (StopsAt isNumeric) p := by
    intro p hp
    obtain ⟨call, hcall, rfl⟩ := List.mem_map.mp hp
    exact told_callText (ha call hcall)
  have hstarts : ∀ p : List Char × Value, ∃ c rest, callText p = c :: rest ∧ True := by
    rintro ⟨name, input⟩
    cases name with
    | nil => exact ⟨':', text input, rfl, trivial⟩
    | cons c name => exact ⟨c, name ++ ':' :: text input, rfl, trivial⟩
  have hlist := told_separated hcode (hothers a ha) (fun p _ => hstarts p)
    (fun rest => stopsAt_cons rest (by decide : ¬ isNumeric '|'))
  have hend : StopsAt isNumeric [] ∧ StopsAt (fun _ => True) ([] : List Char) ∧
      StopsAt (· = '|') [] := ⟨stopsAt_nil _, stopsAt_nil _, stopsAt_nil _⟩
  obtain ⟨hsame, -⟩ := hlist _ (hothers b hb) [] [] hend hend (congrArg (· ++ []) h)
  have hmaps : (a.map nameAndInput).map (fun p => (p.1.toList, p.2)) =
      (b.map nameAndInput).map (fun p => (p.1.toList, p.2)) := by
    rw [List.map_map, List.map_map]
    exact hsame
  exact List.map_injective_iff.mpr letters_inj hmaps

/-- Tool calls with the same fingerprint have the same names and inputs. -/
theorem toolFingerprint_inj (a b : List ToolCall) (ha : ∀ call ∈ a, Plain call)
    (hb : ∀ call ∈ b, Plain call) (h : toolFingerprint a = toolFingerprint b) :
    a.map nameAndInput = b.map nameAndInput := by
  have htexts := congrArg String.toList h
  rw [toList_toolFingerprint, toList_toolFingerprint] at htexts
  exact callTexts_inj ha hb htexts

def listAndRead (first second : String) : List ToolCall :=
  [⟨first, "ls", .object [("depth", .number "1")]⟩,
    ⟨second, "cat", .object [("path", .string "a:b")]⟩]

/-- The same two calls under other ids than before. -/
theorem toolFingerprint_inj_listAndRead :
    (listAndRead "1" "2").map nameAndInput = (listAndRead "3" "4").map nameAndInput := by
  have hls : IsJson (.object [("depth", .number "1")]) := by
    refine .object _ (fun f hf => ?_)
    rw [List.mem_singleton.mp hf]
    have hone : "1".toList.all (fun c => decide (isNumeric c)) := by decide
    exact .number "1" (by decide) (fun c hc => of_decide_eq_true (List.all_eq_true.mp hone c hc))
  have hcat : IsJson (.object [("path", .string "a:b")]) := by
    refine .object _ (fun f hf => ?_)
    rw [List.mem_singleton.mp hf]
    exact .string "a:b"
  have hplain : ∀ first second : String, ∀ call ∈ listAndRead first second, Plain call := by
    intro first second call hcall
    simp only [listAndRead, List.mem_cons, List.not_mem_nil, or_false] at hcall
    rcases hcall with rfl | rfl
    · exact ⟨(by decide : ':' ∉ "ls".toList), hls⟩
    · exact ⟨(by decide : ':' ∉ "cat".toList), hcat⟩
  exact toolFingerprint_inj _ _ (hplain "1" "2") (hplain "3" "4") rfl

section Runs

variable {agent : Agent} {runId : String} {turns : ℕ → Turn} {input : AgentInput}

def toolTurns (agent : Agent) (turns : ℕ → Turn) (k : ℕ) : List ℕ :=
  (List.range k).filter (fun i => isToolTurn agent (turns i))

theorem rtake_map {α β : Type} (f : α → β) (xs : List α) (n : ℕ) :
    (xs.map f).rtake n = (xs.rtake n).map f := by
  simp [List.rtake, List.map_drop]

/-- The turns that the loop takes for repetitions make the same calls. -/
theorem repeated_turns_identical {k : ℕ} {s : RunState} {threshold : ℕ}
    (hstate : stateAt agent runId turns input k = some s)
    (htool : isToolTurn agent (turns k) = true)
    (hplain : ∀ i, ∀ call ∈ turnCalls (turns i), Plain call)
    (hrepeated : Repeated agent s threshold (turnCalls (turns k))) :
    ∀ i ∈ (toolTurns agent turns (k + 1)).rtake agent.config.stuckThreshold,
      (turnCalls (turns i)).map nameAndInput =
        (turnCalls (turns k)).map nameAndInput := by
  obtain ⟨response, first, rest, hresponse, hcalls, hhandoff⟩ := isToolTurn_cases htool
  rw [turnCalls_eq hresponse, hcalls] at hrepeated
  have hsame := ((repeated_iff hstate hresponse hcalls hhandoff threshold).mp hrepeated).2
  intro i hi
  have hprint : toolFingerprint (turnCalls (turns i)) ∈
      (toolPrints agent turns (k + 1)).rtake agent.config.stuckThreshold := by
    rw [toolPrints, rtake_map]
    exact List.mem_map_of_mem hi
  have htexts := congrArg String.toList (hsame _ hprint)
  rw [toList_toolFingerprint, toList_toolFingerprint] at htexts
  exact callTexts_inj (hplain i) (hplain k) htexts

end Runs

end October.TurnFingerprints
