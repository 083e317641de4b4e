import TimeoutAudit.Yaml.Document

/-!
# Documents that were read to their ends

A reader that cannot go on leaves a broken node and a problem behind.  So where no problem is left
nothing is broken (`Assembly.readsWhole`), neither the tree nor the anchored nodes of a document
(`Document.isWhole_ofText`).
-/

set_option autoImplicit false

namespace TimeoutAudit.Yaml

namespace Node

theorem areWholeEntries_iff {entries : List (Node × Node)} :
    areWholeEntries entries = true ↔
      ∀ entry ∈ entries, entry.1.isWhole = true ∧ entry.2.isWhole = true := by
  induction entries with
  | nil => simp [areWholeEntries]
  | cons entry rest ih =>
      obtain ⟨key, value⟩ := entry
      simp [areWholeEntries, ih]

theorem areWholeEntries_cons {key value : Node} {rest : List (Node × Node)}
    (whole_key : key.isWhole = true) (whole_value : value.isWhole = true)
    (whole_rest : areWholeEntries rest = true) :
    areWholeEntries ((key, value) :: rest) = true := by
  rw [areWholeEntries, whole_key, whole_value, whole_rest]
  rfl

end Node

/-- Whether the nodes of a document were read to their ends. -/
structure Document.IsWhole (document : Document) : Prop where
  root : ∀ root, document.root = some root → root.isWhole = true
  anchored : ∀ anchor ∈ document.anchored, anchor.2.isWhole = true

namespace Assembly

/-! ## What a reader leaves behind -/

/-- Whether all nodes with an anchor were read to their ends. -/
def Sound (assembly : Assembly) : Prop := ∀ anchor ∈ assembly.anchored, anchor.2.isWhole = true

/-- Whether a reader leaves nothing broken, unless it leaves a problem. -/
def Leaves {β : Type} (whole : β → Bool) (result : β × Assembly) : Prop :=
  result.2.problem = none → whole result.1 = true ∧ result.2.Sound

section

variable {β : Type} {whole : β → Bool} {broken : β} {assembly : Assembly}

theorem leaves_cutOff : Leaves whole (broken, assembly.cutOff) := nofun

theorem leaves_fail {problem : Problem} : Leaves whole (broken, assembly.fail problem) := nofun

end

theorem Sound.leaves {β : Type} {whole : β → Bool} {found : β} {assembly : Assembly}
    (sound : assembly.Sound) (whole_found : whole found = true) :
    Leaves whole (found, assembly) := by
  intro _
  exact ⟨whole_found, sound⟩

theorem Sound.skip {assembly : Assembly} (sound : assembly.Sound) : assembly.skip.Sound := sound

theorem Sound.pastComma {assembly : Assembly} (sound : assembly.Sound) (first : Bool) :
    (if first then assembly else assembly.skip).Sound := by
  cases first <;> exact sound

theorem anchored_readAnchor (properties : Properties) (assembly : Assembly) :
    (readAnchor properties assembly).2.anchored = assembly.anchored := by
  unfold readAnchor
  split <;> rfl

theorem anchored_readTag (properties : Properties) (assembly : Assembly) :
    (readTag properties assembly).2.anchored = assembly.anchored := by
  unfold readTag
  split <;> rfl

theorem Sound.readProperties {assembly : Assembly} (sound : assembly.Sound) :
    assembly.readProperties.2.Sound := by
  have same : assembly.readProperties.2.anchored = assembly.anchored := by
    simp only [Assembly.readProperties]
    split <;> simp [anchored_readAnchor, anchored_readTag]
  simpa only [Sound, same] using sound

/-- A node that was read to its end may be given a number. -/
theorem Leaves.bindAnchor {node : Node} {assembly : Assembly} (number : Option Nat)
    (leaves : Leaves Node.isWhole (node, assembly)) :
    Leaves Node.isWhole (node, assembly.bindAnchor number node) := by
  cases number with
  | none => exact leaves
  | some number =>
      intro clear
      obtain ⟨whole, sound⟩ := leaves clear
      exact ⟨whole, List.forall_mem_cons.mpr ⟨whole, sound⟩⟩

/-- What is made of whole parts is whole. -/
theorem Leaves.join {β γ : Type} {whole : β → Bool} {whole' : γ → Bool} {last : β × Assembly}
    {joined : γ} (leaves : Leaves whole last)
    (whole_joined : whole last.1 = true → whole' joined = true) :
    Leaves whole' (joined, last.2) := by
  intro clear
  obtain ⟨whole, sound⟩ := leaves clear
  exact ⟨whole_joined whole, sound⟩

/-- Reading goes on behind what was read, unless there is a problem. -/
theorem Leaves.goOn {β γ : Type} {whole : β → Bool} {whole' : γ → Bool} {first : β × Assembly}
    {stopped : γ} {rest : γ × Assembly} (leaves : Leaves whole first)
    (later : whole first.1 = true → first.2.Sound → Leaves whole' rest) :
    Leaves whole' (if first.2.problem.isSome then (stopped, first.2) else rest) := by
  cases problem : first.2.problem with
  | some found => exact fun clear => nomatch problem.symm.trans clear
  | none =>
      obtain ⟨whole, sound⟩ := leaves problem
      exact later whole sound

theorem Leaves.sequence {result : List Node × Assembly} (leaves : Leaves Node.areWhole result)
    (mark : Mark) (number : Option Nat) :
    Leaves Node.isWhole
      (.sequence mark result.1, result.2.bindAnchor number (.sequence mark result.1)) := by
  apply Leaves.bindAnchor number
  exact leaves.join fun whole => by rw [Node.isWhole, whole]

theorem Leaves.mapping {result : List (Node × Node) × Assembly}
    (leaves : Leaves Node.areWholeEntries result) (mark : Mark) (number : Option Nat) :
    Leaves Node.isWhole
      (.mapping mark result.1, result.2.bindAnchor number (.mapping mark result.1)) := by
  apply Leaves.bindAnchor number
  exact leaves.join fun whole => by rw [Node.isWhole, whole]

/-- No reader leaves anything broken without a problem. -/
structure ReadsWhole (fuel : Nat) : Prop where
  node : ∀ {assembly : Assembly}, assembly.Sound → ∀ block indentless,
    Leaves Node.isWhole (readNode fuel block indentless assembly)
  blockPart : ∀ {assembly : Assembly}, assembly.Sound → ∀ stops indentless mark,
    Leaves Node.isWhole (readBlockPart fuel stops indentless mark assembly)
  dashes : ∀ {assembly : Assembly}, assembly.Sound → ∀ start,
    Leaves Node.areWhole (readDashes fuel start assembly)
  blockEntries : ∀ {assembly : Assembly}, assembly.Sound → ∀ start,
    Leaves Node.areWholeEntries (readBlockEntries fuel start assembly)
  blockValue : ∀ {assembly : Assembly}, assembly.Sound →
    Leaves Node.isWhole (readBlockValue fuel assembly)
  flowPart : ∀ {assembly : Assembly}, assembly.Sound → ∀ stops,
    Leaves Node.isWhole (readFlowPart fuel stops assembly)
  flowValue : ∀ {assembly : Assembly}, assembly.Sound → ∀ stops,
    Leaves Node.isWhole (readFlowValue fuel stops assembly)
  flowItems : ∀ {assembly : Assembly}, assembly.Sound → ∀ start first,
    Leaves Node.areWhole (readFlowItems fuel start first assembly)
  pair : ∀ {assembly : Assembly}, assembly.Sound →
    Leaves (fun entry => entry.1.isWhole && entry.2.isWhole) (readPair fuel assembly)
  flowEntries : ∀ {assembly : Assembly}, assembly.Sound → ∀ start first,
    Leaves Node.areWholeEntries (readFlowEntries fuel start first assembly)

theorem readsWhole_zero : ReadsWhole 0 where
  node _ _ _ := by rw [readNode]; exact leaves_cutOff
  blockPart _ _ _ _ := by rw [readBlockPart]; exact leaves_cutOff
  dashes _ _ := by rw [readDashes]; exact leaves_cutOff
  blockEntries _ _ := by rw [readBlockEntries]; exact leaves_cutOff
  blockValue _ := by rw [readBlockValue]; exact leaves_cutOff
  flowPart _ _ := by rw [readFlowPart]; exact leaves_cutOff
  flowValue _ _ := by rw [readFlowValue]; exact leaves_cutOff
  flowItems _ _ _ := by rw [readFlowItems]; exact leaves_cutOff
  pair _ := by rw [readPair]; exact leaves_cutOff
  flowEntries _ _ _ := by rw [readFlowEntries]; exact leaves_cutOff

/-! ## One step of each reader -/

section Step

variable {fuel : Nat} {assembly : Assembly} (below : ReadsWhole fuel) (sound : assembly.Sound)

include below sound

theorem leaves_readBlockPart (stops : List TokenKind) (indentless : Bool) (mark : Mark) :
    Leaves Node.isWhole (readBlockPart (fuel + 1) stops indentless mark assembly) := by
  rw [readBlockPart]
  split
  · exact leaves_cutOff
  · split
    · exact sound.leaves rfl
    · exact below.node sound true indentless

theorem leaves_readDashes (start : Option Mark) :
    Leaves Node.areWhole (readDashes (fuel + 1) start assembly) := by
  rw [readDashes]
  split
  · exact leaves_cutOff
  · refine (below.blockPart sound.skip _ _ _).goOn fun whole sound => ?_
    exact (below.dashes sound start).join fun whole' => by simp [Node.areWhole, whole, whole']
  · split
    · exact sound.leaves rfl
    · split
      · exact sound.leaves rfl
      · exact leaves_fail

theorem leaves_readBlockEntries (start : Mark) :
    Leaves Node.areWholeEntries (readBlockEntries (fuel + 1) start assembly) := by
  rw [readBlockEntries]
  split
  · exact leaves_cutOff
  · exact sound.leaves rfl
  · refine (below.blockPart sound.skip _ _ _).goOn fun whole sound => ?_
    refine (below.blockValue sound).goOn fun whole' sound => ?_
    exact (below.blockEntries sound start).join (Node.areWholeEntries_cons whole whole')
  · exact leaves_fail

theorem leaves_readBlockValue : Leaves Node.isWhole (readBlockValue (fuel + 1) assembly) := by
  rw [readBlockValue]
  split
  · exact leaves_cutOff
  · exact below.blockPart sound.skip _ _ _
  · exact sound.leaves rfl

theorem leaves_readFlowPart (stops : List TokenKind) :
    Leaves Node.isWhole (readFlowPart (fuel + 1) stops assembly) := by
  rw [readFlowPart]
  split
  · exact leaves_cutOff
  · split
    · exact sound.leaves rfl
    · exact below.node sound false false

theorem leaves_readFlowValue (stops : List TokenKind) :
    Leaves Node.isWhole (readFlowValue (fuel + 1) stops assembly) := by
  rw [readFlowValue]
  split
  · exact leaves_cutOff
  · exact below.flowPart sound.skip stops
  · exact sound.leaves rfl

theorem leaves_readPair :
    Leaves (fun entry => entry.1.isWhole && entry.2.isWhole) (readPair (fuel + 1) assembly) := by
  rw [readPair]
  split
  · exact leaves_cutOff
  · rename_i token _ _
    have key : Leaves Node.isWhole
        (if [TokenKind.value, .flowEntry, .flowSequenceEnd].contains token.kind then
          (Node.nothing token.stop, assembly.skip)
        else readNode fuel false false assembly) := by
      split
      · exact sound.leaves rfl
      · exact below.node sound false false
    refine key.goOn fun whole sound => ?_
    exact (below.flowValue sound _).join fun whole' => Bool.and_eq_true_iff.mpr ⟨whole, whole'⟩

theorem leaves_readFlowItems (start : Mark) (first : Bool) :
    Leaves Node.areWhole (readFlowItems (fuel + 1) start first assembly) := by
  rw [readFlowItems]
  split
  · exact leaves_cutOff
  · exact sound.leaves rfl
  · split
    · exact leaves_fail
    · have behind := sound.pastComma first
      generalize (if first = true then assembly else assembly.skip) = next at behind
      dsimp only
      split
      · exact leaves_cutOff
      · exact behind.leaves rfl
      · refine (below.pair behind.skip).goOn fun whole sound => ?_
        refine (below.flowItems sound start false).join fun whole' => ?_
        simpa [Node.areWhole, Node.isWhole, Node.areWholeEntries, whole'] using whole
      · refine (below.node behind false false).goOn fun whole sound => ?_
        refine (below.flowItems sound start false).join fun whole' => ?_
        simp [Node.areWhole, whole, whole']

theorem leaves_readFlowEntries (start : Mark) (first : Bool) :
    Leaves Node.areWholeEntries (readFlowEntries (fuel + 1) start first assembly) := by
  rw [readFlowEntries]
  split
  · exact leaves_cutOff
  · exact sound.leaves rfl
  · split
    · exact leaves_fail
    · have behind := sound.pastComma first
      generalize (if first = true then assembly else assembly.skip) = next at behind
      dsimp only
      split
      · exact leaves_cutOff
      · exact behind.leaves rfl
      · rename_i token _ _ _
        by_cases keyed : (token.kind == TokenKind.key) = true
        · simp only [keyed, if_true]
          refine (below.flowPart behind.skip _).goOn fun whole sound => ?_
          refine (below.flowValue sound _).goOn fun whole' sound => ?_
          exact (below.flowEntries sound start false).join
            (Node.areWholeEntries_cons whole whole')
        · simp only [keyed, Bool.false_eq_true, if_false]
          have read := below.node behind false false
          generalize readNode fuel false false next = found at read
          obtain ⟨key, after⟩ := found
          refine read.goOn fun whole sound => ?_
          cases after.tokens with
          | nil => exact leaves_cutOff
          | cons following rest =>
              have nothing : Leaves Node.isWhole (.nothing following.start, after) :=
                sound.leaves rfl
              refine nothing.goOn fun whole' sound => ?_
              exact (below.flowEntries sound start false).join
                (Node.areWholeEntries_cons whole whole')

theorem leaves_readNode (block indentless : Bool) :
    Leaves Node.isWhole (readNode (fuel + 1) block indentless assembly) := by
  rw [readNode]
  split
  · split
    · exact sound.leaves rfl
    · exact leaves_fail
  · have behind := sound.readProperties
    generalize assembly.readProperties = read at behind
    obtain ⟨properties, next⟩ := read
    dsimp only at behind ⊢
    split
    · exact leaves_cutOff
    · split
      · exact leaves_fail
      · -- The name of an anchor may be new behind its properties, but no node has it yet.
        have named {other : Assembly} (same : other.anchored = next.anchored) : other.Sound := by
          simpa only [Sound, same] using behind
        split
        · exact ((named (by split <;> rfl)).leaves rfl).bindAnchor _
        · exact (below.flowItems (named (by split <;> rfl)) _ _).sequence _ _
        · exact (below.flowEntries (named (by split <;> rfl)) _ _).mapping _ _
        · split
          · exact (below.dashes (named (by split <;> rfl)) _).sequence _ _
          · split
            · exact (below.dashes (named (by split <;> rfl)) _).sequence _ _
            · split
              · exact (below.blockEntries (named (by split <;> rfl)) _).mapping _ _
              · split
                · exact ((named (by split <;> rfl)).leaves rfl).bindAnchor _
                · exact leaves_fail

end Step

/-- **Readers leave nothing broken**, whatever number of steps they are given, unless they leave a
problem. -/
theorem readsWhole (fuel : Nat) : ReadsWhole fuel := by
  induction fuel with
  | zero => exact readsWhole_zero
  | succ fuel below =>
      exact
        { node := leaves_readNode below
          blockPart := leaves_readBlockPart below
          dashes := leaves_readDashes below
          blockEntries := leaves_readBlockEntries below
          blockValue := leaves_readBlockValue below
          flowPart := leaves_readFlowPart below
          flowValue := leaves_readFlowValue below
          flowItems := leaves_readFlowItems below
          pair := leaves_readPair below
          flowEntries := leaves_readFlowEntries below }

/-! ## Documents -/

theorem anchored_readDirectives (versioned : Bool) (tokens : List Token) (assembly : Assembly) :
    (readDirectives versioned tokens assembly).anchored = assembly.anchored := by
  fun_induction readDirectives versioned tokens assembly <;> simp_all [fail, skip]

theorem isWhole_finishDocument {root : Node} {assembly : Assembly}
    (leaves : Leaves Node.isWhole (root, assembly))
    (clear : (finishDocument root assembly).problem = none) :
    (finishDocument root assembly).IsWhole := by
  cases problem : assembly.problem with
  | some found => simp [finishDocument, problem] at clear
  | none =>
      obtain ⟨whole, sound⟩ := leaves problem
      cases tokens : assembly.tokens with
      | nil => simp [finishDocument, problem, tokens, cutOff] at clear
      | cons token rest =>
          have root_eq : (finishDocument root assembly).root = some root := by
            simp [finishDocument, problem, tokens]
          have anchored_eq : (finishDocument root assembly).anchored = assembly.anchored := by
            simp [finishDocument, problem, tokens]
          exact ⟨fun node top => by cases root_eq.symm.trans top; exact whole,
            anchored_eq ▸ sound⟩

theorem leaves_readContent {assembly : Assembly} (sound : assembly.Sound) (fuel : Nat) :
    Leaves Node.isWhole (readContent fuel assembly) := by
  unfold readContent
  split
  · exact leaves_cutOff
  · split
    · exact sound.leaves rfl
    · exact (readsWhole fuel).node sound true false

theorem isWhole_readDocument {assembly : Assembly} (sound : assembly.Sound) (fuel : Nat)
    (clear : (readDocument fuel assembly).problem = none) :
    (readDocument fuel assembly).IsWhole := by
  have directed : (readDirectives false assembly.tokens assembly).Sound := by
    simpa only [Sound, anchored_readDirectives] using sound
  revert clear
  unfold readDocument
  split
  · nofun
  · split
    · exact fun _ => ⟨nofun, nofun⟩
    · generalize readDirectives false assembly.tokens assembly = next at directed ⊢
      dsimp only
      split
      case isTrue stopped =>
        intro clear
        simp [show next.problem = none from clear] at stopped
      case isFalse =>
        split
        · exact isWhole_finishDocument ((readsWhole fuel).node directed true false)
        · split
          · nofun
          · split
            · nofun
            · exact isWhole_finishDocument (leaves_readContent directed.skip fuel)

end Assembly

/-- **A document without a problem** was read to its end. -/
theorem Document.isWhole_ofText {text : List Char}
    (clear : (Document.ofText text).problem = none) : (Document.ofText text).IsWhole :=
  Assembly.isWhole_readDocument (by simp [Assembly.Sound, Assembly.ofStream]) _ clear

end TimeoutAudit.Yaml
