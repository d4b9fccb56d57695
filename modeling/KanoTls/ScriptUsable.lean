import KanoTls.Script
import Mathlib.Algebra.Order.Group.Unbundled.Abs
import Mathlib.Tactic.NormNum

/-! What `parse_traffic_script` accepts is usable, and the one text on which it is not: a
fake jitter of the least `i32`, which `abs` cannot take. -/
namespace KanoTls.Script
open Text Number
open Config (trim)

def DelayUsable (ln : F64 → F64) : DelaySpec → Prop
  | .none => True
  | .logNormal muMs sigmaMs => ∃ median sigma : ℚ, muMs = ln (.finite median) ∧ sigmaMs = .finite sigma ∧
    0 < median ∧ median ≤ maxDelayMedianMs ∧ 0 ≤ sigma ∧ sigma ≤ maxDelaySigma

structure RuleUsable (ln : F64 → F64) (rule : ScriptRule) : Prop where
  len : rule.lenLo ≤ rule.lenHi
  jitter : -maxFakeJitterOffset ≤ rule.fakeJitter ∧ rule.fakeJitter ≤ maxFakeJitterOffset
  delay : DelayUsable ln rule.delay

def headOf (line : Text) : Option Text := (splitOnce '=' (trim line)).map (fun sides => trim sides.1)
def isStop (line : Text) : Bool := decide (headOf line = some stopText)

structure Accepted (ln : F64 → F64) (lines : List Text) (parsed : ParsedScript) : Prop where
  some' : parsed.rules ≠ []
  indices : (lines.filter (fun line => !isStop line)).map (fun line => (headOf line).map parseUsize) =
    (List.range parsed.rules.length).map (fun index => some (.ok index))
  stopOnce : (lines.filter isStop).length ≤ 1
  stop : 1 ≤ parsed.stop
  usable : ∀ rule ∈ parsed.rules,RuleUsable ln rule

def MinJitter (rest : Text) : Prop := ∃ countText jitterText count, splitOnce '?' rest = some (countText,jitterText) ∧
  parseU8 (trim countText) = .ok count ∧ parseI32 (trim jitterText) = .ok i32Min

def MinPart (text : Text) : Prop := ∃ rest, stripPrefix ['F',':'] (trim text) = some rest ∧ MinJitter (trim rest)

/- The parser comes to such a field: what stands before it, in its entry and in the entries
before, is accepted. -/
def MinBody (build : Build) (body : Text) : Prop := ∃ front part back fields, split ',' body = front ++ part::back ∧
  front.foldlM (parsePart build) {} = .ok fields ∧ MinPart part

def MinEntry (build : Build) (entries : Entries) (line : Text) : Prop := ∃ headText bodyText,
  splitOnce '=' (trim line) = some (headText,bodyText) ∧ trim headText ≠ stopText ∧
  parseUsize (trim headText) = .ok entries.1.length ∧ MinBody build (trim bodyText)

def ReachesMin (build : Build) (lines : List Text) : Prop := ∃ front line back entries, lines = front ++ line::back ∧
  front.foldlM (parseEntry build) ([],none) = .ok entries ∧ MinEntry build entries line

section Fields
variable {ln : F64 → F64} {build : Build} {rest text body : Text} {fields : Fields}

theorem intFieldOk {α : Type} {field : String} {x : Except IntErrorKind α} {value : α} (read : intField field x = .ok value) :
    x = .ok value := by
  cases x with
  | error error => contradiction
  | ok found => exact congrArg Except.ok (Except.ok.inj read)

theorem intFieldCalm {α : Type} {field : String} {x : Except IntErrorKind α} : intField field x ≠ .error .panicked := by
  cases x <;> simp [intField,refuse]

theorem floatFieldCalm {field : String} {x : Except ParseFloatError F64} : floatField field x ≠ .error .panicked := by
  cases x <;> simp [floatField,refuse]

theorem lenCalm : parseLenSpec rest ≠ .error .panicked := by
  intro failed
  unfold parseLenSpec at failed
  split at failed
  · obtain here | ⟨lo,-,failed⟩ := bindFails failed
    · exact intFieldCalm here
    · obtain here | ⟨hi,-,failed⟩ := bindFails failed
      · exact intFieldCalm here
      · split at failed <;> simp [refuse] at failed
  · split at failed
    · obtain here | ⟨base,-,failed⟩ := bindFails failed
      · exact intFieldCalm here
      · obtain here | ⟨range,-,failed⟩ := bindFails failed
        · exact intFieldCalm here
        · simp at failed
    · obtain here | ⟨fixed,-,failed⟩ := bindFails failed
      · exact intFieldCalm here
      · simp at failed

theorem lenUsable {lo hi : Nat} {pinned : Bool} (read : parseLenSpec rest = .ok (lo,hi,pinned)) : lo ≤ hi := by
  unfold parseLenSpec at read
  split at read
  · obtain ⟨first,-,read⟩ := bindOk read
    obtain ⟨second,-,read⟩ := bindOk read
    split at read
    · simp [refuse] at read
    · rename_i ordered
      cases Except.ok.inj read
      exact Nat.not_lt.mp ordered
  · split at read
    · obtain ⟨base,based,read⟩ := bindOk read
      obtain ⟨range,-,read⟩ := bindOk read
      cases Except.ok.inj read
      have fits : lo ≤ usizeMax := parseUnsignedBound (intFieldOk based)
      exact Nat.le_min.mpr ⟨Nat.le_add_right _ _,fits⟩
    · obtain ⟨fixed,-,read⟩ := bindOk read
      cases Except.ok.inj read
      exact Nat.le_refl _

theorem medianCalm {median : F64} : medianMsToMu build median ≠ .error .panicked := by
  intro failed
  unfold medianMsToMu at failed
  repeat' split at failed
  all_goals simp [refuse] at failed

theorem medianUsable {median mu : F64} (read : medianMsToMu build median = .ok mu) :
    ∃ value : ℚ, mu = build.ln (.finite value) ∧ 0 < value ∧ value ≤ maxDelayMedianMs := by
  unfold medianMsToMu at read
  split at read
  · simp [refuse] at read
  · rename_i positive
    split at read
    · simp [refuse] at read
    · rename_i limited
      cases Except.ok.inj read
      cases median with
      | nan => simp [F64.isFinite] at positive
      | inf negative => simp [F64.isFinite] at positive
      | finite value =>
        refine ⟨value,rfl,?_,?_⟩
        · simpa [F64.isFinite,F64.le] using positive
        · simpa [F64.gt] using limited

theorem delayCalm : parseDelaySpec build rest ≠ .error .panicked := by
  intro failed
  unfold parseDelaySpec at failed
  split at failed
  · simp at failed
  · split at failed
    · obtain here | ⟨median,-,failed⟩ := bindFails failed
      · exact floatFieldCalm here
      · obtain here | ⟨sigma,-,failed⟩ := bindFails failed
        · exact floatFieldCalm here
        · split at failed
          · simp [refuse] at failed
          · split at failed
            · simp [refuse] at failed
            · obtain here | ⟨mu,-,failed⟩ := bindFails failed
              · exact medianCalm here
              · simp at failed
    · obtain here | ⟨median,-,failed⟩ := bindFails failed
      · exact floatFieldCalm here
      · obtain here | ⟨mu,-,failed⟩ := bindFails failed
        · exact medianCalm here
        · simp at failed

theorem delayUsable {delay : DelaySpec} (read : parseDelaySpec build rest = .ok delay) : DelayUsable build.ln delay := by
  unfold parseDelaySpec at read
  split at read
  · cases Except.ok.inj read
    trivial
  · split at read
    · obtain ⟨median,-,read⟩ := bindOk read
      obtain ⟨sigma,-,read⟩ := bindOk read
      split at read
      · simp [refuse] at read
      · rename_i positive
        split at read
        · simp [refuse] at read
        · rename_i limited
          obtain ⟨mu,found,read⟩ := bindOk read
          cases Except.ok.inj read
          obtain ⟨value,same,above,below⟩ := medianUsable found
          cases sigma with
          | nan => simp [F64.isFinite] at positive
          | inf negative => simp [F64.isFinite] at positive
          | finite spread =>
            refine ⟨value,spread,same,rfl,above,below,?_,?_⟩
            · simpa [F64.isFinite,F64.lt] using positive
            · simpa [F64.gt] using limited
    · obtain ⟨median,-,read⟩ := bindOk read
      obtain ⟨mu,found,read⟩ := bindOk read
      cases Except.ok.inj read
      obtain ⟨value,same,above,below⟩ := medianUsable found
      exact ⟨value,1/2,same,rfl,above,below,by norm_num,by norm_num [maxDelaySigma]⟩

theorem fakeUsable {count : Nat} {jitter : Int} (read : parseFakeSpec build rest = .ok (count,jitter)) :
    jitter ≤ maxFakeJitterOffset ∧ (build.overflowChecks = true → -maxFakeJitterOffset ≤ jitter) := by
  unfold parseFakeSpec at read
  split at read
  · obtain ⟨n,-,read⟩ := bindOk read
    obtain ⟨k,-,read⟩ := bindOk read
    obtain ⟨size,sized,read⟩ := bindOk read
    split at read
    · simp [refuse] at read
    · rename_i within
      cases Except.ok.inj read
      unfold absI32 at sized
      split at sized
      · rename_i least
        rw [least]
        refine ⟨by decide,fun checks => ?_⟩
        rw [checks,if_pos rfl] at sized
        contradiction
      · cases Except.ok.inj sized
        obtain ⟨low,high⟩ := abs_le.mp (Int.not_lt.mp within)
        exact ⟨high,fun _ => low⟩
  · obtain ⟨n,-,read⟩ := bindOk read
    cases Except.ok.inj read
    exact ⟨by decide,fun _ => by decide⟩

theorem fakePanics (checks : build.overflowChecks = true) : parseFakeSpec build rest = .error .panicked ↔ MinJitter rest := by
  unfold parseFakeSpec MinJitter
  constructor
  · intro failed
    split at failed
    · rename_i countText jitterText found
      obtain here | ⟨count,counted,failed⟩ := bindFails failed
      · exact absurd here intFieldCalm
      · obtain here | ⟨jitter,read,failed⟩ := bindFails failed
        · exact absurd here intFieldCalm
        · obtain here | ⟨size,-,failed⟩ := bindFails failed
          · unfold absI32 at here
            split at here
            · rename_i least
              exact ⟨countText,jitterText,count,found,intFieldOk counted,least ▸ intFieldOk read⟩
            · contradiction
          · split at failed <;> simp [refuse] at failed
    · obtain here | ⟨count,-,failed⟩ := bindFails failed
      · exact absurd here intFieldCalm
      · contradiction
  · rintro ⟨countText,jitterText,count,found,counted,read⟩
    rw [found]
    simp only [counted,read,intField]
    show (absI32 build i32Min >>= _) = _
    rw [absI32,if_pos rfl,if_pos checks]
    rfl

theorem fakeAgrees (clear : parseFakeSpec ⟨true,ln⟩ rest ≠ .error .panicked) :
    parseFakeSpec ⟨false,ln⟩ rest = parseFakeSpec ⟨true,ln⟩ rest := by
  have notMin : ¬ MinJitter rest := fun least => clear ((fakePanics rfl).mpr least)
  unfold parseFakeSpec
  split
  · rename_i countText jitterText found
    cases counted : parseU8 (trim countText) with
    | error error => rfl
    | ok count =>
      cases read : parseI32 (trim jitterText) with
      | error error => rfl
      | ok jitter =>
        have other : jitter ≠ i32Min := by
          intro least
          exact notMin ⟨countText,jitterText,count,found,counted,least ▸ read⟩
        have same : absI32 ⟨false,ln⟩ jitter = absI32 ⟨true,ln⟩ jitter := by
          rw [absI32,absI32,if_neg other,if_neg other]
        show (absI32 _ jitter >>= _) = (absI32 _ jitter >>= _)
        rw [same]
  · rfl

theorem partPanics (checks : build.overflowChecks = true) :
    parsePart build fields text = .error .panicked ↔ MinPart text := by
  unfold parsePart MinPart
  dsimp only
  cases lens : stripPrefix ['L',':'] (trim text) with
  | some rest =>
    have other : stripPrefix ['F',':'] (trim text) = none := by
      rw [stripPrefixSome lens]
      rfl
    rw [other]
    dsimp only
    constructor
    · intro failed
      obtain here | ⟨range,-,failed⟩ := bindFails failed
      · exact absurd here lenCalm
      · contradiction
    · rintro ⟨_,absent,_⟩
      contradiction
  | none =>
    cases delays : stripPrefix ['D',':'] (trim text) with
    | some rest =>
      have other : stripPrefix ['F',':'] (trim text) = none := by
        rw [stripPrefixSome delays]
        rfl
      rw [other]
      dsimp only
      constructor
      · intro failed
        obtain here | ⟨delay,-,failed⟩ := bindFails failed
        · exact absurd here delayCalm
        · contradiction
      · rintro ⟨_,absent,_⟩
        contradiction
    | none =>
      cases fakes : stripPrefix ['F',':'] (trim text) with
      | none =>
        constructor
        · intro failed
          simp [refuse] at failed
        · rintro ⟨_,absent,_⟩
          contradiction
      | some rest =>
        dsimp only
        constructor
        · intro failed
          obtain here | ⟨pair,-,failed⟩ := bindFails failed
          · exact ⟨rest,rfl,(fakePanics checks).mp here⟩
          · contradiction
        · rintro ⟨_,same,least⟩
          cases same
          rw [(fakePanics checks).mpr least]
          rfl

theorem partAgrees (clear : parsePart ⟨true,ln⟩ fields text ≠ .error .panicked) :
    parsePart ⟨false,ln⟩ fields text = parsePart ⟨true,ln⟩ fields text := by
  unfold parsePart at clear ⊢
  dsimp only at clear ⊢
  split at clear
  · rfl
  · split at clear
    · rfl
    · split at clear
      · rename_i rest _
        have calm : parseFakeSpec ⟨true,ln⟩ (trim rest) ≠ .error .panicked := by
          intro failed
          rw [failed] at clear
          exact clear rfl
        rw [fakeAgrees calm]
      · rfl

theorem bodyPanics (checks : build.overflowChecks = true) :
    parseRuleBody build body = .error .panicked ↔ MinBody build body := by
  unfold parseRuleBody MinBody
  constructor
  · intro failed
    obtain here | ⟨fields,-,failed⟩ := bindFails failed
    · obtain ⟨front,part,back,fields,same,before,here⟩ := loopFails.mp here
      exact ⟨front,part,back,fields,same,before,(partPanics checks).mp here⟩
    · split at failed <;> simp [refuse] at failed
  · rintro ⟨front,part,back,fields,same,before,least⟩
    rw [loopFails.mpr ⟨front,part,back,fields,same,before,(partPanics checks).mpr least⟩]
    rfl

theorem bodyAgrees (clear : parseRuleBody ⟨true,ln⟩ body ≠ .error .panicked) :
    parseRuleBody ⟨false,ln⟩ body = parseRuleBody ⟨true,ln⟩ body := by
  have calm : (split ',' body).foldlM (parsePart ⟨true,ln⟩) {} ≠ .error .panicked := by
    intro failed
    unfold parseRuleBody at clear
    rw [failed] at clear
    exact clear rfl
  unfold parseRuleBody
  rw [loopAgrees (fun _ _ => partAgrees) calm]

/- What the fields of any build promise; the lower bound of the jitter needs the check. -/
structure Promised (build : Build) (rule : ScriptRule) : Prop where
  len : rule.lenLo ≤ rule.lenHi
  jitterHigh : rule.fakeJitter ≤ maxFakeJitterOffset
  jitterLow : build.overflowChecks = true → -maxFakeJitterOffset ≤ rule.fakeJitter
  delay : DelayUsable build.ln rule.delay

structure FieldsUsable (build : Build) (fields : Fields) : Prop where
  len : ∀ range ∈ fields.lenRange,range.1 ≤ range.2.1
  jitterHigh : fields.fakeJitter ≤ maxFakeJitterOffset
  jitterLow : build.overflowChecks = true → -maxFakeJitterOffset ≤ fields.fakeJitter
  delay : DelayUsable build.ln fields.delay

theorem partUsable {next : Fields} (usable : FieldsUsable build fields) (read : parsePart build fields text = .ok next) :
    FieldsUsable build next := by
  unfold parsePart at read
  dsimp only at read
  split at read
  · obtain ⟨range,found,read⟩ := bindOk read
    cases Except.ok.inj read
    refine {usable with len := ?_}
    intro other same
    cases Option.mem_def.mp same
    exact lenUsable found
  · split at read
    · obtain ⟨delay,found,read⟩ := bindOk read
      cases Except.ok.inj read
      exact {usable with delay := delayUsable found}
    · split at read
      · obtain ⟨pair,found,read⟩ := bindOk read
        cases Except.ok.inj read
        obtain ⟨high,low⟩ := fakeUsable found
        exact {usable with jitterHigh := high,jitterLow := low}
      · simp [refuse] at read

theorem bodyUsable {rule : ScriptRule} (read : parseRuleBody build body = .ok rule) : Promised build rule := by
  unfold parseRuleBody at read
  obtain ⟨fields,ran,read⟩ := bindOk read
  have start : FieldsUsable build {} := ⟨fun range absent => by contradiction,by decide,fun _ => by decide,trivial⟩
  have usable : FieldsUsable build fields :=
    loopKeeps (I := fun _ fields => FieldsUsable build fields) start (fun here step => partUsable here step) ran
  split at read
  · simp [refuse] at read
  · rename_i found
    cases Except.ok.inj read
    exact ⟨usable.len _ found,usable.jitterHigh,usable.jitterLow,usable.delay⟩

end Fields

section Entries
variable {ln : F64 → F64} {build : Build} {line : Text} {lines : List Text} {entries : Entries}

theorem headFound {headText bodyText : Text} (found : splitOnce '=' (trim line) = some (headText,bodyText)) :
    trim line ≠ [] ∧ headOf line = some (trim headText) := by
  refine ⟨?_,by rw [headOf,found]; rfl⟩
  intro empty
  rw [empty] at found
  contradiction

theorem entryCases {next : Entries} (read : parseEntry build entries line = .ok next) :
    (isStop line = true ∧ entries.2 = none ∧ ∃ n, 1 ≤ n ∧ next = (entries.1,some n)) ∨
    (isStop line = false ∧ (headOf line).map parseUsize = some (.ok entries.1.length) ∧
      ∃ rule, Promised build rule ∧ next = (entries.1 ++ [rule],entries.2)) := by
  unfold parseEntry at read
  dsimp only at read
  split at read
  · simp [refuse] at read
  · split at read
    · simp [refuse] at read
    · rename_i headText bodyText found
      have head := (headFound found).2
      split at read
      · rename_i stops
        split at read
        · simp [refuse] at read
        · rename_i fresh
          split at read
          · simp [refuse] at read
          · rename_i n _
            split at read
            · simp [refuse] at read
            · rename_i positive
              cases Except.ok.inj read
              refine .inl ⟨?_,by simpa using fresh,n,Nat.pos_of_ne_zero positive,rfl⟩
              rw [isStop,head,stops]
              exact decide_eq_true rfl
      · rename_i other
        split at read
        · simp [refuse] at read
        · rename_i index parsed
          split at read
          · simp [refuse] at read
          · rename_i ordered
            obtain ⟨rule,found,read⟩ := bindOk read
            cases Except.ok.inj read
            refine .inr ⟨?_,?_,rule,bodyUsable found,rfl⟩
            · rw [isStop,head]
              exact decide_eq_false (fun same => other (Option.some.inj same))
            · rw [head,← Decidable.not_not.mp ordered,← parsed]
              rfl

theorem entryPanics (checks : build.overflowChecks = true) :
    parseEntry build entries line = .error .panicked ↔ MinEntry build entries line := by
  unfold parseEntry MinEntry
  dsimp only
  constructor
  · intro failed
    split at failed
    · simp [refuse] at failed
    · split at failed
      · simp [refuse] at failed
      · rename_i headText bodyText found
        split at failed
        · repeat' split at failed
          all_goals simp [refuse] at failed
        · rename_i other
          split at failed
          · simp [refuse] at failed
          · rename_i index parsed
            split at failed
            · simp [refuse] at failed
            · rename_i ordered
              obtain here | ⟨rule,-,failed⟩ := bindFails failed
              · have same := Decidable.not_not.mp ordered
                exact ⟨headText,bodyText,found,other,same ▸ parsed,(bodyPanics checks).mp here⟩
              · contradiction
  · rintro ⟨headText,bodyText,found,other,parsed,least⟩
    rw [if_neg (headFound found).1,found]
    dsimp only
    rw [if_neg other,parsed]
    dsimp only
    rw [if_neg (not_not_intro rfl),(bodyPanics checks).mpr least]
    rfl

theorem entryAgrees (clear : parseEntry ⟨true,ln⟩ entries line ≠ .error .panicked) :
    parseEntry ⟨false,ln⟩ entries line = parseEntry ⟨true,ln⟩ entries line := by
  have notMin : ¬ MinEntry ⟨true,ln⟩ entries line := fun least => clear ((entryPanics rfl).mpr least)
  unfold parseEntry
  dsimp only
  by_cases empty : trim line = []
  · rw [if_pos empty,if_pos empty]
  · rw [if_neg empty,if_neg empty]
    cases found : splitOnce '=' (trim line) with
    | none => rfl
    | some sides =>
      obtain ⟨headText,bodyText⟩ := sides
      dsimp only
      by_cases stops : trim headText = stopText
      · rw [if_pos stops,if_pos stops]
      · rw [if_neg stops,if_neg stops]
        cases parsed : parseUsize (trim headText) with
        | error error => rfl
        | ok index =>
          dsimp only
          by_cases ordered : index = entries.1.length
          · have calm : parseRuleBody ⟨true,ln⟩ (trim bodyText) ≠ .error .panicked := by
              intro failed
              exact notMin ⟨headText,bodyText,found,stops,ordered ▸ parsed,(bodyPanics rfl).mp failed⟩
            rw [bodyAgrees calm]
          · rw [if_pos ordered,if_pos ordered]

theorem scriptPanics (checks : build.overflowChecks = true) :
    parseTrafficScript build lines = .error .panicked ↔ ReachesMin build lines := by
  unfold parseTrafficScript ReachesMin
  constructor
  · intro failed
    obtain here | ⟨entries,-,failed⟩ := bindFails failed
    · obtain ⟨front,line,back,entries,same,before,here⟩ := loopFails.mp here
      exact ⟨front,line,back,entries,same,before,(entryPanics checks).mp here⟩
    · split at failed <;> simp [refuse] at failed
  · rintro ⟨front,line,back,entries,same,before,least⟩
    rw [loopFails.mpr ⟨front,line,back,entries,same,before,(entryPanics checks).mpr least⟩]
    rfl

theorem scriptAgrees (clear : parseTrafficScript ⟨true,ln⟩ lines ≠ .error .panicked) :
    parseTrafficScript ⟨false,ln⟩ lines = parseTrafficScript ⟨true,ln⟩ lines := by
  have calm : lines.foldlM (parseEntry ⟨true,ln⟩) ([],none) ≠ .error .panicked := by
    intro failed
    unfold parseTrafficScript at clear
    rw [failed] at clear
    exact clear rfl
  unfold parseTrafficScript
  rw [loopAgrees (fun _ _ => entryAgrees) calm]

structure EntriesUsable (build : Build) (front : List Text) (entries : Entries) : Prop where
  indices : (front.filter (fun line => !isStop line)).map (fun line => (headOf line).map parseUsize) =
    (List.range entries.1.length).map (fun index => some (.ok index))
  stops : (front.filter isStop).length = entries.2.toList.length
  stop : ∀ n ∈ entries.2,1 ≤ n
  rules : ∀ rule ∈ entries.1,Promised build rule

theorem entryUsable {front : List Text} {next : Entries} (usable : EntriesUsable build front entries)
    (read : parseEntry build entries line = .ok next) : EntriesUsable build (front ++ [line]) next := by
  obtain ⟨stops,fresh,n,positive,rfl⟩ | ⟨ruled,index,rule,promised,rfl⟩ := entryCases read
  · refine {usable with indices := ?_,stops := ?_,stop := ?_}
    · rw [List.filter_append,List.map_append,usable.indices]
      simp [stops]
    · rw [List.filter_append,List.length_append,usable.stops,fresh]
      simp [stops]
    · intro m same
      cases Option.mem_def.mp same
      exact positive
  · refine {usable with indices := ?_,stops := ?_,rules := ?_}
    · rw [List.filter_append,List.map_append,usable.indices,List.length_append,List.length_singleton,
        List.range_succ,List.map_append]
      simp [ruled,index]
    · rw [List.filter_append,List.length_append,usable.stops]
      simp [ruled]
    · intro other member
      rcases List.mem_append.mp member with before | last
      · exact usable.rules other before
      · rw [List.mem_singleton.mp last]
        exact promised

theorem scriptUsable {parsed : ParsedScript} (read : parseTrafficScript build lines = .ok parsed) :
    parsed.rules ≠ [] ∧ 1 ≤ parsed.stop ∧ ∃ stop, EntriesUsable build lines (parsed.rules,stop) := by
  unfold parseTrafficScript at read
  obtain ⟨entries,ran,read⟩ := bindOk read
  have start : EntriesUsable build [] ([],none) :=
    ⟨rfl,rfl,fun n absent => by contradiction,fun rule absent => by contradiction⟩
  have usable := loopKeeps (I := EntriesUsable build) start (fun here step => entryUsable here step) ran
  split at read
  · simp [refuse] at read
  · rename_i some'
    cases Except.ok.inj read
    refine ⟨some',?_,entries.2,usable⟩
    cases stop : entries.2 with
    | none => exact List.length_pos_iff.mpr some'
    | some n => exact usable.stop n stop

end Entries

/- No build panics or overflows and every build accepts only usable scripts, exactly when the
parser never comes to a jitter of the least number. -/
theorem acceptsUsable (ln : F64 → F64) (lines : List Text) :
    ((∀ checks, parseTrafficScript ⟨checks,ln⟩ lines ≠ .error .panicked) ∧
      ∀ checks parsed, parseTrafficScript ⟨checks,ln⟩ lines = .ok parsed → Accepted ln lines parsed) ↔
    ¬ ReachesMin ⟨true,ln⟩ lines := by
  constructor
  · rintro ⟨calm,-⟩ reached
    exact calm true ((scriptPanics rfl).mpr reached)
  · intro never
    have clear : parseTrafficScript ⟨true,ln⟩ lines ≠ .error .panicked := fun failed => never ((scriptPanics rfl).mp failed)
    have every : ∀ checks, parseTrafficScript ⟨checks,ln⟩ lines = parseTrafficScript ⟨true,ln⟩ lines := by
      intro checks
      cases checks with
      | true => rfl
      | false => exact scriptAgrees clear
    refine ⟨fun checks => by rw [every]; exact clear,?_⟩
    intro checks parsed read
    rw [every] at read
    obtain ⟨some',stop,found,usable⟩ := scriptUsable read
    refine ⟨some',usable.indices,?_,stop,?_⟩
    · rw [usable.stops]
      cases found <;> simp
    · intro rule member
      have promised := usable.rules rule member
      exact ⟨promised.len,⟨promised.jitterLow rfl,promised.jitterHigh⟩,promised.delay⟩

def leastJitter : List Text := ["0=L:200-250,F:1?-2147483648".toList]

theorem leastJitterPasses : parseTrafficScript ⟨true,fun v => v⟩ leastJitter = .error .panicked ∧
    (parseTrafficScript ⟨false,fun v => v⟩ leastJitter).toOption.map (fun parsed => parsed.rules.map (·.fakeJitter)) =
      some [-2147483648] :=
  ⟨rfl,rfl⟩

end KanoTls.Script
