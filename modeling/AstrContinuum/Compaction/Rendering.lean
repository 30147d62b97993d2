import AstrContinuum.Domain.Envelopes

/-!
# Rendering

`render_capsule`: the text of a capsule, whose tokens are counted under the canonical profile.
-/

namespace AstrContinuum

/-- `AnchorType.value.upper()`. -/
def AnchorType.label : AnchorType → String
  | .name => "NAME"
  | .number => "NUMBER"
  | .date => "DATE"
  | .path => "PATH"
  | .url => "URL"
  | .code => "CODE"
  | .formula => "FORMULA"
  | .prompt => "PROMPT"
  | .constraint => "CONSTRAINT"
  | .commitment => "COMMITMENT"
  | .manual => "MANUAL"
  | .other => "OTHER"

/-- The suffix `[source:...]` of a rendered item. -/
def renderSources (sourceEventIds : List String) : String :=
  "[source:" ++ ",".intercalate sourceEventIds ++ "]"

/-- The lines of one claim group: its active claims. -/
def renderClaims (label : String) (group : List CapsuleClaim) : List String :=
  (group.filter fun item => item.status = .active).map fun item =>
    label ++ ": " ++ item.text ++ " " ++ renderSources item.sourceEventIds

/-- The lines of one active decision. -/
def renderDecision (item : Decision) : List String :=
  ["DECISION: " ++ item.text ++ " " ++ renderSources item.sourceEventIds] ++
    (if item.rationale = "" then [] else ["RATIONALE: " ++ item.rationale]) ++
    (item.alternatives.map fun value => "ALTERNATIVE: " ++ value) ++
    (if item.rejectedBecause = "" then [] else ["REJECTED_BECAUSE: " ++ item.rejectedBecause])

/-- The line of one entity. -/
def renderEntity (item : Entity) : String :=
  "ENTITY: " ++ item.canonicalName ++ " (" ++ item.kind ++ ") " ++
    renderSources item.sourceEventIds

/-- The line of one anchor. -/
def renderAnchor (item : CapsuleAnchor) : String :=
  "EXACT_" ++ item.anchorType.label ++ ": " ++ item.exactText ++ " " ++
    renderSources item.sourceEventIds

/-- `render_capsule`. -/
def renderCapsule (capsule : ContextCapsuleEnvelope) : String :=
  "\n".intercalate
    (["[CAPSULE " ++ capsule.capsuleId ++ " EVENTS " ++ toString capsule.coveredEventStart ++ "-" ++
        toString capsule.coveredEventEnd ++ "]"] ++
      renderClaims "GOAL" capsule.goals ++
      renderClaims "CONSTRAINT" capsule.constraints ++
      renderClaims "PROGRESS" capsule.progress ++
      renderClaims "OPEN_LOOP" capsule.openLoops ++
      renderClaims "PREFERENCE" capsule.preferences ++
      renderClaims "EMOTIONAL_CONTEXT" capsule.emotionalContext ++
      (capsule.decisions.filter fun item => item.status = .active).flatMap renderDecision ++
      capsule.entities.map renderEntity ++
      (capsule.exactAnchors.filter fun item => item.status = .active).map renderAnchor)

end AstrContinuum
