import FountainTransfer.Decoding

/-!
# A model of the engine's laws

The laws of `Engine` are assumptions about other crates. This module exhibits engines that
satisfy them, so that results under these assumptions are about something: the repetition
code, whose symbol `c` is source symbol `c mod K`. Schemes exist for the documented ranges
only, up to 56403 source symbols for RaptorQ and from 4 to 8192 for Raptor10. `num_total`
is that of the RFCs for the small transfers below: 27 for up to ten RaptorQ symbols, 14 for
four of Raptor10.
-/

namespace FountainTransfer.Repetition

open ErasureCode

/-- The symbols inserted so far, in order. -/
def operators : DataOperators where
  Operator := List Bytes
  vecDataOperater _ := []
  insertVector op symbol _ := op ++ [symbol]
  Fresh _ op := op = []
  fresh_vec _ := rfl

/-- The symbols seen, each under the source id it repeats, latest last. -/
structure Decoder where
  k : Nat
  seen : List (Nat × Bytes)

def Decoder.add (d : Decoder) (c : Nat) (symbol : Bytes) : Decoder :=
  { d with seen := d.seen ++ [(c % d.k, symbol)] }

def Decoder.status (d : Decoder) : DecodeStatus :=
  if ∀ i ∈ List.range d.k, (d.seen.lookup i).isSome then .decoded else .pending

theorem status_eq_decoded {d : Decoder} :
    d.status = .decoded ↔ ∀ i ∈ List.range d.k, (d.seen.lookup i).isSome := by
  unfold Decoder.status
  split
  · next h => exact iff_of_true rfl h
  · next h => exact iff_of_false (fun h => nomatch h) h

/-- The numbers of source symbols with a scheme, its `num_total`, and where its encoder can be
built. -/
structure Code where
  supported : Nat → Bool
  numTotal : Nat → Nat
  encodable : Nat → Bool

/-- The encoder of the linked scheme cannot be built for 904 to 913 source symbols. -/
def codeQ : Code where
  supported k := 1 ≤ k ∧ k ≤ 56403
  numTotal k := max 27 (k + 1)
  encodable k := k < 904 ∨ 913 < k

def code10 : Code where
  supported k := 4 ≤ k ∧ k ≤ 8192
  numTotal k := max 14 (k + 1)
  encodable _ := true

def engine (Config : Type) (code : Code) : Engine operators.Operator Config where
  Scheme := Nat
  Encoder := List Bytes
  Decoder := Decoder
  sysCode k _ := if code.supported k then .ok k else .error "unsupported number of source symbols"
  numTotal := code.numTotal
  newEncoder k op t :=
    if code.encodable k ∧ k * t ≤ isizeMax then .ok op else .error "no encoder for these parameters"
  encodeCodedVector e _ := some e
  getCodedVector e c := e.getD (c % e.length) []
  newDecoder k _ t := if k * t ≤ isizeMax then .ok ⟨k, []⟩ else .error "capacity overflow"
  addCodedVector d c symbol := .ok (d.add c symbol, (d.add c symbol).status)
  decodeStatus := Decoder.status
  getDataVector d i := (d.seen.lookup i).getD []

def engines : Engines where
  ops := operators
  raptorQ := engine _ codeQ
  raptor10 := engine _ code10

def encode : EncodingMap := fun _ k c block => block.getD (c % k) []

section

variable {Config : Type} {code : Code}

theorem sysCode_eq_ok {k scheme : Nat} {config : Config} :
    (engine Config code).sysCode k config = .ok scheme ↔ code.supported k = true ∧ scheme = k := by
  simp only [engine]
  split
  · next h => simp [h, eq_comm]
  · next h => simp [h]

theorem newEncoder_eq_ok {k t : Nat} {op e : List Bytes} :
    (engine Config code).newEncoder k op t = .ok e ↔
      (code.encodable k = true ∧ k * t ≤ isizeMax) ∧ e = op := by
  simp only [engine]
  split
  · next h => simp [h, eq_comm]
  · next h => simp [h]

theorem newDecoder_eq_ok {k t : Nat} {op : List Bytes} {d : Decoder} :
    (engine Config code).newDecoder k op t = .ok d ↔ k * t ≤ isizeMax ∧ d = ⟨k, []⟩ := by
  simp only [engine]
  split
  · next h => simp [h, eq_comm]
  · next h => simp [h]

/-! ## The encoder -/

theorem insert_take (block : List Bytes) : ∀ n ≤ block.length,
    (List.range n).foldl (fun (op : List Bytes) i => op ++ [block.getD i []]) [] = block.take n := by
  intro n
  induction n with
  | zero => exact fun _ => List.take_zero.symm
  | succ n ih =>
    intro hn
    have hlt : n < block.length := hn
    have hget : block.getD n [] = block[n] := by
      rw [List.getD_eq_getElem?_getD, List.getElem?_eq_getElem hlt, Option.getD_some]
    rw [List.range_succ, List.foldl_append, ih (by omega), List.take_add_one,
      List.getElem?_eq_getElem hlt, ← hget]
    rfl

theorem insertBlock_eq (block : List Bytes) : operators.insertBlock [] block = block := by
  have hall := insert_take block block.length (Nat.le_refl _)
  rw [List.take_length] at hall
  exact hall

theorem serves_eq {k t : Nat} {config : Config} {block e : List Bytes}
    (h : ((engine Config code).encoderSide operators k config t).Serves block e) :
    e = block ∧ IsBlock k t block := by
  induction h with
  | loaded h =>
    obtain ⟨scheme, op, _, hfresh, hblock, hnew⟩ := h
    cases hfresh
    obtain ⟨_, rfl⟩ := newEncoder_eq_ok.mp hnew
    exact ⟨insertBlock_eq block, hblock⟩
  | prepared _ hprepare ih =>
    cases hprepare
    exact ih

/-! ## The decoder -/

theorem fed_seen {k t : Nat} {config : Config} {fed : List (Nat × Bytes)}
    {reports : List DecodeStatus} {d : Decoder}
    (h : ((engine Config code).decoderSide operators k config t).Fed fed reports d) :
    d = ⟨k, fed.map fun x => (x.1 % k, x.2)⟩ ∧ k * t ≤ isizeMax ∧
      (fed ≠ [] → d.status ∈ reports) := by
  induction h with
  | start h =>
    obtain ⟨scheme, op, hscheme, _, hnew⟩ := h
    obtain ⟨_, rfl⟩ := sysCode_eq_ok.mp hscheme
    obtain ⟨hroom, rfl⟩ := newDecoder_eq_ok.mp hnew
    exact ⟨rfl, hroom, fun h => absurd rfl h⟩
  | @add fed reports d d' c v r _ hadd ih =>
    cases hadd
    obtain ⟨rfl, hroom, _⟩ := ih
    exact ⟨by simp [Decoder.add], hroom, fun _ => List.mem_append_right _ List.mem_cons_self⟩

theorem lookup_seen {k i : Nat} {fed : List (Nat × Bytes)} {block : List Bytes} {symbol : Bytes}
    (hfed : Agrees (fun c block => block.getD (c % k) []) block fed)
    (h : (fed.map fun x => (x.1 % k, x.2)).lookup i = some symbol) : symbol = block.getD i [] := by
  induction fed with
  | nil => cases h
  | cons x fed ih =>
    rw [List.map_cons, List.lookup_cons] at h
    split at h
    · next heq =>
      cases h
      have hi : i = x.1 % k := beq_iff_eq.mp heq
      rw [hi]
      exact hfed x List.mem_cons_self
    · exact ih (fun y hy => hfed y (List.mem_cons_of_mem _ hy)) h

theorem lookup_isSome {k i : Nat} {fed : List (Nat × Bytes)} {v : Bytes} (hi : i < k)
    (h : (i, v) ∈ fed) : ((fed.map fun x => (x.1 % k, x.2)).lookup i).isSome := by
  rw [List.lookup_isSome_iff]
  exact ⟨(i % k, v), List.mem_map.mpr ⟨(i, v), h, rfl⟩, by simp [Nat.mod_eq_of_lt hi]⟩

theorem faithful (config : Type) : (engine config code).Faithful operators
    fun k _ c block => block.getD (c % k) [] where
  systematic := by
    intro k t config c block hblock hc
    have hlt : c < block.length := by rw [hblock.1]; exact hc
    simp [Nat.mod_eq_of_lt hc, List.getD_eq_getElem?_getD, hlt]
  symbol_length := by
    intro k t config c block hk hblock
    have hlt : c % k < block.length := by rw [hblock.1]; exact Nat.mod_lt c hk
    rw [List.getD_eq_getElem?_getD, List.getElem?_eq_getElem hlt]
    exact hblock.2 _ (List.getElem_mem hlt)
  encoder := by
    intro k config t block c symbol h
    cases h with
    | source hserves _ =>
      obtain ⟨rfl, hlen, _⟩ := serves_eq hserves
      exact hlen ▸ rfl
    | prepared hserves hprepare =>
      obtain ⟨rfl, hlen, _⟩ := serves_eq hserves
      cases hprepare
      exact hlen ▸ rfl
  decoder := by
    intro k config t fed reports d block hfed hblock hagrees hcomplete
    obtain ⟨rfl, _⟩ := fed_seen hfed
    apply List.ext_getElem?
    intro i
    by_cases hi : i < k
    · have hlt : i < block.length := by rw [hblock.1]; exact hi
      have hsome : ((fed.map fun x => (x.1 % k, x.2)).lookup i).isSome := by
        exact status_eq_decoded.mp hcomplete i (List.mem_range.mpr hi)
      obtain ⟨symbol, hsymbol⟩ := Option.isSome_iff_exists.mp hsome
      have hget : symbol = block[i] := by
        rw [lookup_seen hagrees hsymbol]
        simp [List.getD_eq_getElem?_getD, hlt]
      simp [Engine.decoderSide, engine, hi, hsymbol, hget, hlt]
    · have hge : block.length ≤ i := by rw [hblock.1]; omega
      simp [Engine.decoderSide, hi, hge]

theorem prompt (config : Type) (Again : Prop) : (engine config code).Prompt operators
    (fun k _ c block => block.getD (c % k) []) Again where
  starts := by
    rintro k config t scheme op block e hscheme _ ⟨_, _, hscheme', _, _, hnew⟩
    cases hscheme.symm.trans hscheme'
    obtain ⟨⟨_, hroom⟩, _⟩ := newEncoder_eq_ok.mp hnew
    exact ⟨_, newDecoder_eq_ok.mpr ⟨hroom, rfl⟩⟩
  progress := by
    intro k config scheme t hk hscheme
    refine ⟨?_, ?_, ?_⟩
    · intro fed reports d block c _ _ _ _ _ _
      exact ⟨_, _, rfl⟩
    · intro fed reports d d' c v _ hadd
      have hpair : (d.add c v, (d.add c v).status) = (d', .decoded) := Except.ok.inj hadd
      obtain ⟨rfl, hstatus⟩ := Prod.mk.inj hpair
      exact hstatus
    · intro fed reports d block hfed _ _ hne hall
      obtain ⟨hd, _, hlast⟩ := fed_seen hfed
      have hstatus : Decoder.status d = .decoded := by
        rw [hd, status_eq_decoded]
        intro i hi
        obtain ⟨v, hv⟩ := hall i hi
        exact lookup_isSome (List.mem_range.mp hi) hv
      exact hstatus ▸ hlast hne

theorem reportsStatus (config : Type) : (engine config code).ReportsStatus operators := by
  intro k config t fed reports d c symbol d' status _ _ hadd
  cases hadd
  rfl

end

theorem engines_faithful : engines.Faithful encode where
  raptorQ := faithful _
  raptor10 := faithful _

theorem engines_promptWhere (Again : Prop) : engines.PromptWhere Again encode where
  raptorQ := prompt _ _
  raptor10 := prompt _ _

theorem engines_prompt : engines.Prompt encode := engines_promptWhere True

theorem engines_promptOnce : engines.PromptOnce encode := engines_promptWhere False

theorem engines_reportsStatus : engines.ReportsStatus where
  raptorQ := reportsStatus _
  raptor10 := reportsStatus _

/-! ## Two small transfers -/

/-- One symbol of one byte, so `K = 1`. -/
def specQ : TransferSpec := ⟨1, 1, CodecKind.raptorQ.defaultConfig⟩

/-- Four symbols of one byte, so `K = 4`. -/
def spec10 : TransferSpec := ⟨4, 1, CodecKind.raptor10.defaultConfig⟩

def decoderQ : TransferDecoderImpl engines :=
  .raptorQ ⟨⟨⟨1, []⟩, ⟨1, 1, 1, (defaultDmax, raptorQLdpcType)⟩⟩, 27⟩ specQ

def decoder10 : TransferDecoderImpl engines :=
  .raptor10 ⟨⟨4, []⟩, ⟨4, 1, 4, defaultDmax⟩⟩ spec10

theorem decoderQ_constructed : TransferDecoderImpl.Constructed engines specQ decoderQ :=
  .new rfl

theorem decoder10_constructed : TransferDecoderImpl.Constructed engines spec10 decoder10 :=
  .new rfl

end FountainTransfer.Repetition
