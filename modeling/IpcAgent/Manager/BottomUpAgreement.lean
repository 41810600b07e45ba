import IpcAgent.Manager.Reads

/-!
# Agreement on bottom-up checkpoints

A bottom-up checkpoint is put together from the child's head, the template for its epoch and
the previous checkpoint. Unlike the top-down manager, this one takes the head as it finds it,
so the checkpoints of two agents for the same epoch agree only if both have looked at the child
at the same height.
-/

namespace IpcAgent.Manager
open Library Lotus

/-! ## What was read last -/

/-- The last value that `f` finds in a trace. -/
def latest {α : Type} (f : Event (Call Side) Reply Mark → Option α) (h : Trace Side) : Option α :=
  h.foldl (fun found e => (f e).or found) none

theorem latest_snoc {α : Type} (f : Event (Call Side) Reply Mark → Option α) (h : Trace Side)
    (e : Event (Call Side) Reply Mark) : latest f (h ++ [e]) = (f e).or (latest f h) := by
  simp [latest]

theorem latest_append {α : Type} {f : Event (Call Side) Reply Mark → Option α}
    {h ev : Trace Side} (other : ∀ e ∈ ev, f e = none) : latest f (h ++ ev) = latest f h := by
  induction ev using List.reverseRecOn with
  | nil => simp
  | append_singleton ev e ih =>
    rw [← List.append_assoc, latest_snoc, other e (by simp), Option.none_or]
    exact ih fun e he => other e (List.mem_append_left _ he)

/-- The child's head an iteration works with is the one whose gateway it reads. -/
def examined : Event (Call Side) Reply Mark → Option Cid
  | .exchange (.rpc .child (.ipcReadGatewayState tipSet)) _ => some tipSet
  | _ => none

/-- The previous checkpoint of the child, as the parent reports it. -/
def prevRead (ext : Ext) : Event (Call Side) Reply Mark → Option Cid
  | .exchange (.rpc .parent (.ipcGetPrevCheckpointForChild _)) (.cid none) => some ext.defaultCid
  | .exchange (.rpc .parent (.ipcGetPrevCheckpointForChild _)) (.cid (some m)) => cidOf ext m
  | _ => none

/-- The child's head was read. -/
def HeadRead (r : ChainHeadResponse) (h : Trace Side) : Prop :=
  .exchange (.rpc .child .chainHead) (.tipSet r) ∈ h

theorem HeadRead.append {r : ChainHeadResponse} {h : Trace Side} (read : HeadRead r h)
    (ev : Trace Side) : HeadRead r (h ++ ev) := List.mem_append_left ev read

/-- The child was seen at a height that is not below the epoch. -/
def Reached (epoch : ChainEpoch) (h : Trace Side) : Prop :=
  ∃ r, HeadRead r h ∧ IsEpoch r.height ∧ epoch ≤ r.height.toInt64

/-- The template for an epoch was read when the child had reached it. -/
def TemplateRead (epoch : ChainEpoch) (text : String) (h : Trace Side) : Prop :=
  ∃ l₁ l₂, h = l₁ ++ .exchange (.rpc .child (.ipcGetCheckpointTemplate epoch)) (.text text) :: l₂ ∧
    Reached epoch l₁

theorem Reached.append {epoch : ChainEpoch} {h : Trace Side} (reached : Reached epoch h)
    (ev : Trace Side) : Reached epoch (h ++ ev) := by
  obtain ⟨r, mem, small, le⟩ := reached
  exact ⟨r, mem.append ev, small, le⟩

theorem TemplateRead.append {epoch : ChainEpoch} {text : String} {h : Trace Side}
    (read : TemplateRead epoch text h) (ev : Trace Side) : TemplateRead epoch text (h ++ ev) := by
  obtain ⟨l₁, l₂, rfl, reached⟩ := read
  exact ⟨l₁, l₂ ++ ev, by simp, reached⟩

/-! ## What is submitted -/

def decodeTemplate (ext : Ext) (text : String) : Option BottomUpCheckpoint :=
  (ext.base64 text).bind ext.cborCheckpoint

/-- The checkpoint is put together from what was read last. -/
def Assembled (ext : Ext) (child : Subnet) (h : Trace Side) (cp : BottomUpCheckpoint) : Prop :=
  ∃ head prev text template, latest examined h = some head ∧
    latest (prevRead ext) h = some prev ∧ TemplateRead cp.data.epoch text h ∧
    decodeTemplate ext text = some template ∧
    cp.data = ⟨child.id, head.bytes, cp.data.epoch, prev, template.data.children,
      template.data.crossMsgs⟩

/-- Every submission so far was of such a checkpoint. -/
def AllAssembled (ext : Ext) (child : Subnet) (h : Trace Side) : Prop :=
  ∀ l₁ l₂ account params, h = l₁ ++ .mark (.submits account params) :: l₂ →
    ∃ cp, params = .bottomUp cp ∧ Assembled ext child l₁ cp

/-- Neither a submission nor the start of an iteration. -/
def Plain (e : Event (Call Side) Reply Mark) : Prop :=
  examined e = none ∧ ∀ account params, e ≠ .mark (.submits account params)

section Stable

variable {ext : Ext} {child : Subnet} {h ev : Trace Side}

theorem AllAssembled.snoc {e : Event (Call Side) Reply Mark} (all : AllAssembled ext child h)
    (new : ∀ account params, e = .mark (.submits account params) →
      ∃ cp, params = .bottomUp cp ∧ Assembled ext child h cp) :
    AllAssembled ext child (h ++ [e]) := by
  intro l₁ l₂ account params split
  obtain ⟨same, rfl⟩ | ⟨l, rfl, rfl⟩ := snoc_eq_append_cons split
  · exact new account params same
  · exact all l₁ l account params rfl

theorem AllAssembled.append (all : AllAssembled ext child h)
    (none : ∀ e ∈ ev, ∀ account params, e ≠ .mark (.submits account params)) :
    AllAssembled ext child (h ++ ev) := by
  induction ev using List.reverseRecOn with
  | nil => simpa using all
  | append_singleton ev e ih =>
    rw [← List.append_assoc]
    refine (ih fun e he => none e (List.mem_append_left _ he)).snoc fun account params same => ?_
    exact absurd same (none e (by simp) account params)

/-- What stays true until the next submission or iteration. -/
structure Stable (ext : Ext) (child : Subnet) (K : Trace Side → Prop) : Prop where
  all : ∀ h, K h → AllAssembled ext child h
  append : ∀ h ev, K h → (∀ e ∈ ev, Plain e) → K (h ++ ev)

variable {K : Trace Side → Prop} {α : Type} {p : Prog Side α}

theorem Stable.emits (stable : Stable ext child K) (emits : p.Emits Plain) (hK : K h) :
    p.wp (fun _ => K) (fun _ => K) h :=
  emits.wp (fun _ ev _ plain => stable.append h ev hK plain)
    fun _ ev plain => stable.append h ev hK plain

theorem stable_allAssembled : Stable ext child (AllAssembled ext child) :=
  ⟨fun _ => id, fun _ _ all plain => all.append fun e he => (plain e he).2⟩

/-- An iteration that has looked at the child's head `head`, and a fact that does not go away. -/
def Looking (ext : Ext) (child : Subnet) (head : Cid) (F : Trace Side → Prop) (h : Trace Side) :
    Prop :=
  AllAssembled ext child h ∧ latest examined h = some head ∧ F h

theorem stable_looking {head : Cid} {F : Trace Side → Prop}
    (grows : ∀ h ev, F h → F (h ++ ev)) : Stable ext child (Looking ext child head F) where
  all _ hK := hK.1
  append h ev := by
    rintro ⟨all, looking, hF⟩ plain
    refine ⟨all.append fun e he => (plain e he).2, ?_, grows h ev hF⟩
    rw [latest_append fun e he => (plain e he).1]
    exact looking

end Stable

/-! ## The manager -/

section Manager

variable {ext : Ext} {child : Subnet} {h : Trace Side} {head : Cid} {F K : Trace Side → Prop}
  {epoch : ChainEpoch}

theorem plain_exchange {client : Side} {rpc : Rpc} {reply : Reply}
    (notGateway : ∀ tipSet, rpc ≠ .ipcReadGatewayState tipSet) :
    Plain (.exchange (.rpc client rpc) reply) := by
  refine ⟨?_, by simp⟩
  cases client <;> cases rpc <;> first | rfl | exact absurd rfl (notGateway _)

theorem plain_request {α : Type} {client : Side} {rpc : Rpc} {decode : Reply → Option α}
    (notGateway : ∀ tipSet, rpc ≠ .ipcReadGatewayState tipSet) :
    (request client rpc decode).Emits Plain :=
  upholds_request fun _ _ => ⟨plain_exchange notGateway, fun _ _ => trivial⟩

theorem Stable.request {α : Type} (stable : Stable ext child K) (hK : K h) {client : Side}
    {rpc : Rpc} {decode : Reply → Option α} {Q : α → Trace Side → Prop}
    (notGateway : ∀ tipSet, rpc ≠ .ipcReadGatewayState tipSet)
    (next : ∀ reply a, decode reply = some a → K (h ++ [.exchange (.rpc client rpc) reply]) →
      Q a (h ++ [.exchange (.rpc client rpc) reply])) :
    (request client rpc decode).wp Q (fun _ => K) h := by
  have kept : ∀ reply, K (h ++ [.exchange (.rpc client rpc) reply]) := fun reply =>
    stable.append h _ hK (by simpa using plain_exchange notGateway)
  exact wp_request hK (fun _ reply _ => kept reply) fun reply a decoded => next reply a decoded
    (kept reply)

theorem Stable.ipcGetCheckpointTemplate (stable : Stable ext child K) (hK : K h)
    {Q : BottomUpCheckpoint → Trace Side → Prop}
    (next : ∀ text template h', h' = h ++ [.exchange (.rpc .child (.ipcGetCheckpointTemplate epoch))
      (.text text)] → decodeTemplate ext text = some template → K h' → Q template h') :
    (ipcGetCheckpointTemplate ext .child epoch).wp Q (fun _ => K) h := by
  refine Program.wp_bind (stable.request hK (by simp) fun reply text hr kept => ?_)
  obtain rfl : reply = .text text := by cases reply <;> simp_all
  cases bytes : ext.base64 text with
  | none => exact Program.wp_fail kept
  | some b =>
    cases decoded : ext.cborCheckpoint b with
    | none => simpa [bytes, decoded] using Program.wp_fail kept
    | some template =>
      have read : decodeTemplate ext text = some template := by
        simp [decodeTemplate, bytes, decoded]
      simpa [bytes, decoded] using Program.wp_pure (next text template _ rfl read kept)

theorem Stable.ipcGetPrevCheckpointForChild (stable : Stable ext child K) (hK : K h)
    {Q : Option CIDMap → Trace Side → Prop}
    (next : ∀ prev h', h' = h ++ [.exchange (.rpc .parent (.ipcGetPrevCheckpointForChild child.id))
      (.cid prev)] → K h' → Q prev h') :
    (ipcGetPrevCheckpointForChild ext .parent child.id).wp Q (fun _ => K) h := by
  unfold Lotus.ipcGetPrevCheckpointForChild
  split
  · exact Program.wp_fail hK
  · refine stable.request hK (by simp) fun reply prev hr kept => ?_
    obtain rfl : reply = .cid prev := by cases reply <;> simp_all
    exact next prev _ rfl kept

theorem wp_buildCheckpoint (grows : ∀ h ev, F h → F (h ++ ev))
    (looking : Looking ext child head F h) (reached : Reached epoch h) :
    (buildCheckpoint ext child head epoch).wp
      (fun cp h => Looking ext child head F h ∧ Assembled ext child h cp)
      (fun _ => Looking ext child head F) h := by
  have stable : Stable ext child (Looking ext child head F) := stable_looking grows
  refine Program.wp_bind (stable.ipcGetCheckpointTemplate looking ?_)
  rintro text template _ rfl decoded looking
  refine Program.wp_bind (stable.ipcGetPrevCheckpointForChild looking ?_)
  rintro prev h' same looking
  have read : TemplateRead epoch text h' := ⟨h, _, by simpa using same, reached⟩
  have assembled : ∀ c, latest (prevRead ext) h' = some c → Assembled ext child h'
      ⟨⟨child.id, head.bytes, epoch, c, template.data.children, template.data.crossMsgs⟩, []⟩ :=
    fun c hc => ⟨head, c, text, template, looking.2.1, hc, read, decoded, rfl⟩
  cases prev with
  | none =>
    refine Program.wp_pure ⟨looking, assembled ext.defaultCid ?_⟩
    rw [same, latest_snoc]
    simp [prevRead]
  | some m =>
    refine Program.wp_bind (Program.Upholds.wp_of_silent
      (upholds_cidTryFrom (Q := fun c => cidOf ext m = some c) fun _ => id)
      (fun c hc => ?_) fun _ => looking)
    refine Program.wp_bind (Program.wp_pure (Program.wp_pure ⟨looking, assembled c ?_⟩))
    rw [same, latest_snoc]
    simp [prevRead, hc]

theorem wp_submitCheckpoint (grows : ∀ h ev, F h → F (h ++ ev))
    (looking : Looking ext child head F h) (reached : Reached epoch h) (account : Address) :
    (submitCheckpoint ext child head epoch account).wp (fun _ => Looking ext child head F)
      (fun _ => Looking ext child head F) h := by
  have stable : Stable ext child (Looking ext child head F) := stable_looking grows
  refine Program.wp_bind (Program.wp_mono (wp_buildCheckpoint grows looking reached) ?_
    fun _ _ => id)
  rintro cp h ⟨looking, assembled⟩
  refine Program.wp_bind (Program.Upholds.wp_of_silent
    (upholds_serialize (Q := fun params => params = .bottomUp cp) rfl) ?_ fun _ => looking)
  rintro _ rfl
  refine Program.wp_bind (Program.wp_tell (Program.wp_bind ?_))
  -- The submission itself is the one event that is not plain.
  have marked : Looking ext child head F (h ++ [.mark (.submits account (.bottomUp cp))]) := by
    refine ⟨looking.1.snoc fun a params same => ?_, ?_, grows _ _ looking.2.2⟩
    · cases same
      exact ⟨cp, rfl, assembled⟩
    · rw [latest_snoc]
      simpa [examined] using looking.2.1
  have pushed : (mpoolPushAndWait ext .parent (.new (ext.subnetActor child.id) account
      .subnetSubmitCheckpoint (.bottomUp cp))).Emits Plain := by
    refine Program.upholds_bind (plain_request (by simp)) fun _ _ => ?_
    exact Program.upholds_bind emits_cidTryFrom fun _ _ => plain_request (by simp)
  exact Program.wp_mono (stable.emits pushed marked) (fun _ _ hK => Program.wp_pure hK)
    fun _ _ => id

/-- What is known while an account votes for what is due. -/
abbrev VotingFor (ext : Ext) (child : Subnet) (due : Due Cid) : Trace Side → Prop :=
  Looking ext child due.seen (Reached due.epoch)

theorem stable_voting (due : Due Cid) : Stable ext child (VotingFor ext child due) :=
  stable_looking fun _ ev reached => reached.append ev

/-- A submission for something due, made with the head of the iteration. -/
theorem wp_trySubmit_bottomUp (parentId : SubnetID) (due late : Due Cid)
    (voting : VotingFor ext child due h) (same : late.seen = due.seen)
    (reached : Reached late.epoch h) (account : Address) :
    (trySubmit (bottomUp ext child parentId) late account).wp (fun _ => VotingFor ext child due)
      (fun _ => AllAssembled ext child) h := by
  have plain : ∀ ok h, VotingFor ext child due h →
      VotingFor ext child due (h ++ [.mark (.submitted account late.epoch ok)]) := fun ok h hV =>
    (stable_voting due).append h _ hV (by simp [Plain, examined])
  refine wp_trySubmit ?_
  change (submitCheckpoint ext child late.seen late.epoch account).wp _ _ h
  rw [same]
  refine Program.wp_mono (wp_submitCheckpoint (fun _ ev reached => reached.append ev) voting
    reached account) (fun _ => plain true) fun x h hV => ?_
  cases x with
  | fail e => exact plain false h hV
  | _ => exact hV.1

theorem plain_waitOrExit : waitOrExit.Emits Plain :=
  emits_waitOrExit fun _ => ⟨rfl, by simp⟩

/-- The head of the child has been read, and then looked at. -/
theorem wp_observe_bottomUp (parentId : SubnetID) (period : ChainEpoch)
    (all : AllAssembled ext child h) :
    ((bottomUp ext child parentId).observe period).wp
      (fun found h => found.elim (AllAssembled ext child h)
        fun f => VotingFor ext child f.1 (h ++ [.mark (.due f.1.lastExec f.1.period)]))
      (fun _ => AllAssembled ext child) h := by
  refine (shows_observe_bottomUp ext child parentId period).wp (fun found ev shown passive => ?_)
    fun _ ev passive => all.append fun e he => (passive e he).2
  have all := all.append fun e he => (passive e he).2
  cases found with
  | none => exact all
  | some f =>
    obtain ⟨childHead, gateway, parentHead, parentTipSet, state, rfl, -, -, -, small, le, -, -⟩ :=
      shown f rfl
    refine (stable_voting f.1).append _ _ ⟨all, ?_, childHead, ?_, small, le⟩
      (by simp [Plain, examined])
    · simp [latest, examined]
    · simp [HeadRead]

theorem wp_catchUp_bottomUp (parentId : SubnetID) (period : ChainEpoch) {due : Due Cid}
    (voting : VotingFor ext child due h) (account : Address) :
    ((bottomUp ext child parentId).catchUp period due.seen).wp
      (fun found h => found.elim (VotingFor ext child due h)
        fun late => (trySubmit (bottomUp ext child parentId) late account).wp
          (fun _ => VotingFor ext child due) (fun _ => AllAssembled ext child)
          (h ++ [.mark (.due late.lastExec late.period)]))
      (fun _ => AllAssembled ext child) h := by
  refine (shows_catchUp_bottomUp ext child parentId period due.seen
    (fun _ _ => plain_exchange (by simp)) fun _ _ => plain_exchange (by simp)).wp
    (fun found ev shown plain => ?_)
    fun _ ev plain => ((stable_voting due).append h ev voting plain).1
  have voting := (stable_voting due).append h ev voting plain
  cases found with
  | none => exact voting
  | some late =>
    obtain ⟨childHead, parentHead, parentTipSet, state, rfl, -, -, same, small, le⟩ :=
      shown late rfl
    have marked := (stable_voting due).append _ [.mark (.due late.lastExec late.period)] voting
      (by simp [Plain, examined])
    exact wp_trySubmit_bottomUp parentId due late marked same
      ⟨childHead, by simp [HeadRead], small, le⟩ account

theorem loops_allAssembled (parentId : SubnetID) :
    Loops (bottomUp ext child parentId) child.accounts (AllAssembled ext child)
      (fun due _ => VotingFor ext child due) (fun due _ _ => VotingFor ext child due)
      (fun _ => AllAssembled ext child) where
  readPeriod _ all := (informed_bottomUp ext child parentId).readPeriod.wp
    (fun _ _ _ passive => all.append fun e he => (passive e he).2)
    fun _ _ passive => all.append fun e he => (passive e he).2
  observe period _ := wp_observe_bottomUp parentId period
  skip _ _ _ _ := id
  submit due account _ _ voting :=
    wp_trySubmit_bottomUp parentId due due voting rfl voting.2.2 account
  catchUp period _ account _ _ voting := wp_catchUp_bottomUp parentId period voting account
  voted _ _ _ _ := id
  done _ _ voting := voting.1
  wait _ all := stable_allAssembled.emits plain_waitOrExit all
  retry due _ _ _ voting := Program.wp_mono ((stable_voting due).emits plain_waitOrExit voting)
    (fun _ _ => id) fun _ _ hV => hV.1
  spin _ := id
  spinVote _ _ _ _ voting := voting.1

theorem allAssembled_manage (parentId : SubnetID) (as : List Reply) :
    AllAssembled ext child ((manageBottomupCheckpoints ext child parentId).run as).trace := by
  have start : AllAssembled ext child [] := fun _ _ _ _ split => by simp at split
  exact Program.wp_trace (h := []) ((loops_allAssembled parentId).manage start) as

end Manager

/-! ## Agreement -/

/-- The template for an epoch is always the same once the child has reached that epoch. -/
def TemplatesFixed (template : ChainEpoch → String) (t : Trace Side) : Prop :=
  ∀ epoch text, TemplateRead epoch text t → text = template epoch

theorem TemplatesFixed.before {template : ChainEpoch → String} {h ev : Trace Side}
    (fixed : TemplatesFixed template (h ++ ev)) : TemplatesFixed template h :=
  fun epoch text read => fixed epoch text (read.append ev)

theorem Assembled.data_eq_iff {ext : Ext} {child child' : Subnet} {h h' : Trace Side}
    {cp cp' : BottomUpCheckpoint} {template : ChainEpoch → String}
    (assembled : Assembled ext child h cp) (assembled' : Assembled ext child' h' cp')
    (fixed : TemplatesFixed template h) (fixed' : TemplatesFixed template h')
    (sameChild : child.id = child'.id) (sameEpoch : cp.data.epoch = cp'.data.epoch) :
    cp.data = cp'.data ↔ latest examined h = latest examined h' ∧
      latest (prevRead ext) h = latest (prevRead ext) h' := by
  obtain ⟨⟨head⟩, prev, text, tmpl, looked, reported, read, decoded, data⟩ := assembled
  obtain ⟨⟨head'⟩, prev', text', tmpl', looked', reported', read', decoded', data'⟩ := assembled'
  obtain rfl : text = text' := by rw [fixed _ _ read, fixed' _ _ read', sameEpoch]
  obtain rfl := Option.some.inj (decoded.symm.trans decoded')
  rw [data, data', looked, looked', reported, reported', sameChild, sameEpoch]
  simp

/-- Two agents that submit a checkpoint for the same epoch of the same child submit the same
data just when they have looked at the same head of the child and were told of the same
previous checkpoint. -/
theorem bottomup_agreement_iff (ext : Ext) (template : ChainEpoch → String)
    (child child' : Subnet) (parentId parentId' : SubnetID) (sameChild : child.id = child'.id)
    (as as' : List Reply)
    (fixed : TemplatesFixed template ((manageBottomupCheckpoints ext child parentId).run as).trace)
    (fixed' : TemplatesFixed template
      ((manageBottomupCheckpoints ext child' parentId').run as').trace)
    (account account' : Address) (cp cp' : BottomUpCheckpoint)
    (before after before' after' : Trace Side)
    (submits : ((manageBottomupCheckpoints ext child parentId).run as).trace =
      before ++ .mark (.submits account (.bottomUp cp)) :: after)
    (submits' : ((manageBottomupCheckpoints ext child' parentId').run as').trace =
      before' ++ .mark (.submits account' (.bottomUp cp')) :: after')
    (sameEpoch : cp.data.epoch = cp'.data.epoch) :
    cp.data = cp'.data ↔ latest examined before = latest examined before' ∧
      latest (prevRead ext) before = latest (prevRead ext) before' := by
  obtain ⟨_, same, assembled⟩ := allAssembled_manage parentId as _ _ _ _ submits
  obtain ⟨_, same', assembled'⟩ := allAssembled_manage parentId' as' _ _ _ _ submits'
  cases same
  cases same'
  rw [submits] at fixed
  rw [submits'] at fixed'
  exact assembled.data_eq_iff assembled' fixed.before fixed'.before sameChild sameEpoch

/-- The node has one template only. -/
def oneTemplate (text : String) : Event (Call Side) Reply Mark → Bool
  | .exchange (.rpc .child (.ipcGetCheckpointTemplate _)) (.text s) => s == text
  | _ => true

theorem templatesFixed_of_one {text : String} {t : Trace Side} (one : ∀ e ∈ t, oneTemplate text e) :
    TemplatesFixed (fun _ => text) t := by
  rintro epoch s ⟨l₁, l₂, rfl, -⟩
  simpa [oneTemplate] using
    one (.exchange (.rpc .child (.ipcGetCheckpointTemplate epoch)) (.text s)) (by simp)

/-- The subnet `/root/t01` with one account, on an agent that has found the child at the given
head, with the period 10, the last executed epoch 0 and no previous checkpoint. -/
def submitAt (account : UInt8) (childHead : ChainHeadResponse) :
    Run (Call Side) Reply Mark Error Stop Unit :=
  let parentHead : Reply := .tipSet ⟨[⟨some "p"⟩], 5⟩
  let actor : Reply := .subnetActorState ⟨10, some [⟨"a"⟩, ⟨"b"⟩], ⟨0⟩⟩
  (manageBottomupCheckpoints .plain ⟨⟨"/root/t01"⟩, [⟨[account]⟩]⟩ ⟨"/root"⟩).run
    [parentHead, actor, .tipSet childHead, .gatewayState ⟨10, 0, ⟨0⟩, true⟩, parentHead, actor,
      .text "t", .cid none]

/-- The checkpoint for epoch 10 with a given proof. -/
def checkpointAt (proof : List UInt8) : BottomUpCheckpoint :=
  ⟨⟨⟨"/root/t01"⟩, proof, 10, ⟨[]⟩, [], ⟨none, 0⟩⟩, []⟩

theorem bottomup_agreement_same_head :
    ∃ cp cp', .mark (.submits ⟨[97]⟩ (.bottomUp cp)) ∈ (submitAt 97 ⟨[⟨some "c"⟩], 10⟩).trace ∧
      .mark (.submits ⟨[98]⟩ (.bottomUp cp')) ∈ (submitAt 98 ⟨[⟨some "c"⟩], 10⟩).trace ∧
      cp.data = cp'.data := by
  refine ⟨checkpointAt [99], checkpointAt [99], by decide +kernel, by decide +kernel, ?_⟩
  refine (bottomup_agreement_iff .plain (fun _ => "t") ⟨⟨"/root/t01"⟩, [⟨[97]⟩]⟩
    ⟨⟨"/root/t01"⟩, [⟨[98]⟩]⟩ ⟨"/root"⟩ ⟨"/root"⟩ rfl _ _
    (templatesFixed_of_one (t := (submitAt 97 ⟨[⟨some "c"⟩], 10⟩).trace) (by decide +kernel))
    (templatesFixed_of_one (t := (submitAt 98 ⟨[⟨some "c"⟩], 10⟩).trace) (by decide +kernel))
    ⟨[97]⟩ ⟨[98]⟩ (checkpointAt [99]) (checkpointAt [99])
    (submitAt 97 ⟨[⟨some "c"⟩], 10⟩).trace.dropLast []
    (submitAt 98 ⟨[⟨some "c"⟩], 10⟩).trace.dropLast [] ?_ ?_ rfl).mpr ?_
  all_goals decide +kernel

/-- One agent looks at the child at height 10, the other at height 11. Both submit a
checkpoint for epoch 10, with different proofs. -/
theorem bottomup_disagreement :
    TemplatesFixed (fun _ => "t") (submitAt 97 ⟨[⟨some "c"⟩], 10⟩).trace ∧
    TemplatesFixed (fun _ => "t") (submitAt 98 ⟨[⟨some "d"⟩], 11⟩).trace ∧
    ∃ cp cp', .mark (.submits ⟨[97]⟩ (.bottomUp cp)) ∈ (submitAt 97 ⟨[⟨some "c"⟩], 10⟩).trace ∧
      .mark (.submits ⟨[98]⟩ (.bottomUp cp')) ∈ (submitAt 98 ⟨[⟨some "d"⟩], 11⟩).trace ∧
      cp.data.epoch = cp'.data.epoch ∧ cp.data ≠ cp'.data := by
  refine ⟨templatesFixed_of_one (by decide +kernel), templatesFixed_of_one (by decide +kernel),
    checkpointAt [99], checkpointAt [100], ?_⟩
  decide +kernel

end IpcAgent.Manager
