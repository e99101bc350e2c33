import AgentGraph.Security.FirstPasskey
import AgentGraph.Security.MasterKey

/-! # The bootstrap secret, and both secret files

`_require_bootstrap_secret` and `_consume_bootstrap_secret`, from one file-system call to the
next. The secret is ASCII, so that a byte of its file is a character.
-/
set_option autoImplicit false
namespace AgentGraph.Security.SecretFiles
open Transition

inductive SecretPc
  | mkdir
  | chmodParent
  | pathExists
  | create
  | write (file : ℕ) (secret : UrlSafeToken)
  | close
  | chmod
  | lookup
  | read (file : ℕ)
  /-- The secret has been accepted; the transaction of the bootstrap comes next. -/
  | accepted

inductive SecretResult
  | bootstrapped
  | refused (e : ServiceError)
  | fileExists
  | fileNotFound
  /-- The transaction raises. -/
  | rolledBack
  | stopped
deriving DecidableEq

/-- The secret that is drawn, how many bytes a write gets to the file, and whether the
transaction of the bootstrap commits. -/
structure SecretDraw where
  secret : UrlSafeToken
  written : ℕ
  commits : Bool

abbrev SecretEffect := Database.Effect Unit (NamedFile Char) SecretPc SecretResult

namespace SecretEffect

def goto (pc : SecretPc) (o : NamedFile Char) : SecretEffect := ⟨.at pc,.keep,o⟩
def finish (result : SecretResult) (o : NamedFile Char) : SecretEffect := ⟨.done result,.keep,o⟩

end SecretEffect

open SecretEffect

/-- `read_text`. -/
def secretText (o : NamedFile Char) (file : ℕ) : String := String.ofList (o.content file)

def resume (supplied : String) (o : NamedFile Char) (draw : SecretDraw) : SecretPc → SecretEffect
  | .mkdir => goto .chmodParent o
  | .chmodParent => goto .pathExists o
  | .pathExists => goto (if o.named.isSome then .chmod else .create) o
  | .create =>
    match o.create with
    | none => finish .fileExists o
    | some (f,file) => goto (.write file draw.secret) f
  | .write file secret => goto .close (o.write file (secret.text.toList.take draw.written))
  | .close => goto .chmod o
  | .chmod => if o.named.isSome then goto .lookup o else finish .fileNotFound o
  | .lookup =>
    match o.named with
    | none => finish .fileNotFound o
    | some file => goto (.read file) o
  | .read file =>
    match requireBootstrapSecret supplied (some (secretText o file)) draw.secret with
    | .error e => finish (.refused e) o
    | .ok () => goto .accepted o
  | .accepted => if draw.commits then finish .bootstrapped o.unlink else finish .rolledBack o

/-- The bootstraps, each with the secret that it supplies. -/
def bootstraps : Database.Program Unit (NamedFile Char) String SecretDraw SecretPc SecretResult where
  begin _ _ := .at .mkdir
  resume supplied o _ draw pc := some (resume supplied o draw pc)
  abandon _ o _ := (o,.stopped)
  restart _ o := o

abbrev SecretState := Database.State Unit (NamedFile Char) String SecretPc SecretResult

abbrev SecretLabel := Database.Label String SecretDraw

def noSecret : SecretState := Database.State.initial () .absent

/-- Whoever reads the file, now or after some steps of others, supplies a secret that is accepted. -/
def Presents (s : SecretState) : Prop :=
  ∃ ls u file ls' t supplied, exec (Database.step bootstraps) ls s = some u ∧ u.outside.named = some file ∧
    exec (Database.step bootstraps) (.call (strip (secretText u.outside file)) :: ls') u = some t ∧
    t.tasks u.count = some (supplied,.at .accepted)

/-- Call `i` has created `file` and not written it. -/
def Creates (s : SecretState) (i file : ℕ) : Prop := ∃ supplied secret, s.tasks i = some (supplied,.at (.write file secret))

/-- The file of the name is not left empty by the call that has created it. -/
def WritesSecret (l : SecretLabel) (s : SecretState) : Prop :=
  match l with
  | .call _ => True
  | .run i draw => ∀ file, Creates s i file → s.outside.named = some file → 0 < draw.written
  | .abort i => ∀ file, Creates s i file → s.outside.named ≠ some file
  | .restart _ => ∀ i file, Creates s i file → s.outside.named ≠ some file

theorem bootstraps_detached : bootstraps.Detached := by
  intro supplied o db draw pc e he
  cases he
  cases pc <;> simp only [resume] <;> (repeat' split) <;> rfl

/-! ## What the file holds -/

/-- At least the first character of a secret. -/
def Begun (text : List Char) : Prop := ∃ (secret : UrlSafeToken) (n : ℕ), 0 < n ∧ text = secret.text.toList.take n

theorem Begun.presentable {text : List Char} (h : Begun text) : Presentable (some (String.ofList text)) := by
  obtain ⟨secret,n,hn,rfl⟩ := h
  refine presentable_of_urlSafe (fun hnil => ?_) fun c hc => ?_
  · have hlength := congrArg (fun text : String => text.toList.length) hnil
    simp only [String.toList_ofList, List.length_take, secret.size] at hlength
    change min n 43 = 0 at hlength
    omega
  · rw [String.toList_ofList] at hc
    exact List.all_eq_true.mp secret.urlSafe c (List.mem_of_mem_take hc)

structure Inv (s : SecretState) : Prop where
  quiet : s.Quiet
  created : ∀ i file, Creates s i file → file < s.outside.count
  content : ∀ file, s.outside.named = some file →
    Begun (s.outside.content file) ∨ s.outside.content file = [] ∧ ∃ i, Creates s i file

variable {s t : SecretState} {l : SecretLabel} {i : ℕ} {supplied : String} {pc : SecretPc} {e : SecretEffect}

theorem Inv.ran (hs : Inv s) (h : Database.Ran bootstraps s l i supplied pc e t) (hquiet : t.Quiet)
    (hcount : s.outside.count ≤ e.outside.count) (hcreated : ∀ file secret, e.next = .at (.write file secret) → file < e.outside.count)
    (hcontent : ∀ file, e.outside.named = some file → Begun (e.outside.content file) ∨
      e.outside.content file = [] ∧ ((∃ j, j ≠ i ∧ Creates s j file) ∨ ∃ secret, e.next = .at (.write file secret))) : Inv t := by
  refine ⟨hquiet,fun j file hj => ?_,fun file hnamed => ?_⟩
  · obtain ⟨supplied',secret,ht⟩ := hj
    rw [h.outside]
    obtain ⟨-,hx⟩ | ⟨-,ht⟩ := h.task_cases ht
    · exact hcreated file secret (Prod.mk.inj hx).2.symm
    · exact Nat.lt_of_lt_of_le (hs.created j file ⟨supplied',secret,ht⟩) hcount
  · rw [h.outside] at hnamed ⊢
    obtain hbegun | ⟨hempty,⟨j,hne,supplied',secret,ht⟩ | ⟨secret,hnext⟩⟩ := hcontent file hnamed
    · exact .inl hbegun
    · exact .inr ⟨hempty,j,supplied',secret,by rw [h.tasks, Function.update_of_ne hne, ht]⟩
    · exact .inr ⟨hempty,i,supplied,secret,by rw [h.tasks, Function.update_self, hnext]⟩

/-- A step that leaves the files alone. -/
theorem Inv.stays (hs : Inv s) (h : Database.Ran bootstraps s l i supplied pc e t) (hquiet : t.Quiet)
    (hother : ∀ file, Creates s i file → s.outside.named ≠ some file) (houtside : e.outside = s.outside)
    (hnext : ∀ file secret, e.next ≠ .at (.write file secret)) : Inv t := by
  refine hs.ran h hquiet (by rw [houtside]) (fun file secret hwrite => absurd hwrite (hnext file secret)) fun file hnamed => ?_
  rw [houtside] at hnamed ⊢
  obtain hbegun | ⟨hempty,j,hj⟩ := hs.content file hnamed
  · exact .inl hbegun
  · refine .inr ⟨hempty,.inl ⟨j,?_,hj⟩⟩
    rintro rfl
    exact hother file hj hnamed

/-- A call that is not about to write has created nothing that it has not written. -/
theorem not_creates (ht : s.tasks i = some (supplied,.at pc)) (hpc : ∀ file secret, pc ≠ .write file secret) (file : ℕ) :
    ¬Creates s i file := by
  rintro ⟨supplied',secret,hwrite⟩
  rw [ht] at hwrite
  cases hwrite
  exact hpc file secret rfl

/-- The file is written, at least in part. -/
theorem Inv.writes {file : ℕ} {secret : UrlSafeToken} {draw : SecretDraw} (hs : Inv s)
    (h : Database.Ran bootstraps s l i supplied (.write file secret) (resume supplied s.outside draw (.write file secret)) t)
    (hquiet : t.Quiet) (hwritten : s.outside.named = some file → 0 < draw.written) : Inv t := by
  refine hs.ran h hquiet (Nat.le_refl _) (fun _ _ hwrite => (by cases hwrite)) fun other hnamed => ?_
  simp only [resume, goto] at hnamed ⊢
  obtain rfl | hne := eq_or_ne other file
  · rw [NamedFile.write_content_self]
    exact .inl ⟨secret,draw.written,hwritten hnamed,rfl⟩
  · rw [NamedFile.write_content_of_ne _ hne]
    obtain hbegun | ⟨hempty,j,supplied',secret',ht⟩ := hs.content other hnamed
    · exact .inl hbegun
    · refine .inr ⟨hempty,.inl ⟨j,?_,supplied',secret',ht⟩⟩
      rintro rfl
      rw [h.task] at ht
      cases ht
      exact hne rfl

/-- A permitted step. -/
theorem Inv.step (hs : Inv s) (hok : WritesSecret l s) (hstep : Database.step bootstraps l s = some t) : Inv t := by
  have hquiet := hs.quiet.step bootstraps_detached hstep
  cases Database.step_moved hstep with
  | called supplied label state =>
    subst state
    refine ⟨hquiet,fun i file hi => ?_,fun file hnamed => ?_⟩
    · obtain ⟨supplied',secret,ht⟩ := hi
      obtain ⟨-,hx⟩ | ⟨-,ht⟩ := Database.update_cases ht
      · cases hx
      · exact hs.created i file ⟨supplied',secret,ht⟩
    · obtain hbegun | ⟨hempty,i,supplied',secret,ht⟩ := hs.content file hnamed
      · exact .inl hbegun
      · exact .inr ⟨hempty,i,supplied',secret,(Function.update_of_ne (hs.quiet.ne_count ht) _ _).trans ht⟩
  | restarted draw label state =>
    subst label
    subst state
    refine ⟨hquiet,fun i file hi => ?_,fun file hnamed => ?_⟩
    · obtain ⟨_,_,ht⟩ := hi
      cases ht
    · obtain hbegun | ⟨-,i,hi⟩ := hs.content file hnamed
      · exact .inl hbegun
      · exact absurd hnamed (hok i file hi)
  | ran i supplied pc e h =>
    obtain ⟨draw,rfl,he⟩ | ⟨rfl,rfl⟩ := h.label
    · cases he
      cases pc with
      | create =>
        have hother := not_creates h.task (by simp)
        simp only [resume] at h
        split at h
        · exact hs.stays h hquiet (fun file hi => absurd hi (hother file)) rfl (fun _ _ hnext => (by cases hnext))
        next f file hcreate =>
          obtain ⟨-,rfl,hnamed,hcontent,hcount⟩ := NamedFile.create_eq_some hcreate
          refine hs.ran h hquiet ?_ (fun other secret hnext => ?_) fun other hother => ?_
          · simp only [goto, hcount]
            omega
          · cases hnext
            simp only [goto, hcount]
            omega
          · simp only [goto] at hother ⊢
            obtain rfl := Option.some.inj (hnamed.symm.trans hother)
            exact .inr ⟨by rw [hcontent, Function.update_self],.inr ⟨_,rfl⟩⟩
      | write file secret => exact hs.writes h hquiet fun hnamed => hok file ⟨supplied,secret,h.task⟩ hnamed
      | accepted =>
        have hother := not_creates h.task (by simp)
        simp only [resume] at h
        split at h
        · exact hs.ran h hquiet (Nat.le_refl _) (fun _ _ hnext => (by cases hnext)) fun file hnamed => (by cases hnamed)
        · exact hs.stays h hquiet (fun file hi => absurd hi (hother file)) rfl (fun _ _ hnext => (by cases hnext))
      | chmod | lookup | read file =>
        have hother := not_creates h.task (by simp)
        simp only [resume] at h
        split at h <;>
          exact hs.stays h hquiet (fun file hi => absurd hi (hother file)) rfl (fun _ _ hnext => (by cases hnext))
      | mkdir | chmodParent | close =>
        have hother := not_creates h.task (by simp)
        exact hs.stays h hquiet (fun file hi => absurd hi (hother file)) rfl (fun _ _ hnext => (by cases hnext))
      | pathExists =>
        have hother := not_creates h.task (by simp)
        refine hs.stays h hquiet (fun file hi => absurd hi (hother file)) rfl fun file secret hnext => ?_
        simp only [resume, goto] at hnext
        split at hnext <;> cases hnext
    · exact hs.stays h hquiet (fun file hi => hok file hi) rfl (fun _ _ hnext => (by cases hnext))

/-! ## Whoever reads the file -/

theorem serve_step {o : NamedFile Char} {x : Database.Solo Unit (NamedFile Char) SecretPc SecretResult} {draw : SecretDraw}
    {draws : List SecretDraw} (hx : x.ctl = .at pc) (ho : x.outside = o) (he : resume supplied o draw pc = e) :
    bootstraps.serve supplied (draw :: draws) x = bootstraps.serve supplied draws (x.apply e) := by
  subst ho
  exact Database.serve_cons hx (congrArg some he)

theorem presents_of_begun (file : ℕ) (hs : s.Quiet) (hnamed : s.outside.named = some file) (hbegun : Begun (s.outside.content file)) :
    Presents s := by
  let supplied := strip (secretText s.outside file)
  let draw : SecretDraw := ⟨sampleSecret,0,false⟩
  have hexists : resume supplied s.outside draw .pathExists = goto .chmod s.outside := by
    simp only [resume, hnamed, Option.isSome_some, if_true]
  have hchmod : resume supplied s.outside draw .chmod = goto .lookup s.outside := by
    simp only [resume, hnamed, Option.isSome_some, if_true]
  have hlookup : resume supplied s.outside draw .lookup = goto (.read file) s.outside := by simp only [resume, hnamed]
  have hread : resume supplied s.outside draw (.read file) = goto .accepted s.outside := by
    have haccepted : requireBootstrapSecret supplied (some (secretText s.outside file)) draw.secret = .ok () :=
      requireBootstrapSecret_ok hbegun.presentable sampleSecret
    simp only [resume, haccepted]
  let x : Database.Solo Unit (NamedFile Char) SecretPc SecretResult := ⟨.at .accepted,(),(),false,s.outside⟩
  let draws : List SecretDraw := [draw,draw,draw,draw,draw,draw]
  have hserve : bootstraps.serve supplied draws ⟨.at .mkdir,s.db,s.working,false,s.outside⟩ = some x := by
    refine (serve_step rfl rfl rfl).trans ?_
    refine (serve_step rfl rfl rfl).trans ?_
    refine (serve_step rfl rfl hexists).trans ?_
    refine (serve_step rfl rfl hchmod).trans ?_
    refine (serve_step rfl rfl hlookup).trans ?_
    refine (serve_step (x := ⟨.at (.read file),(),(),false,s.outside⟩) rfl rfl hread).trans ?_
    rfl
  refine ⟨[],s,file,draws.map fun draw => .run s.count draw,s.alone supplied x,supplied,rfl,hnamed,?_,Function.update_self _ _ _⟩
  exact Database.exec_call_served hs.unlocked hserve

theorem Presents.behind {ls : List SecretLabel} (he : exec (Database.step bootstraps) ls s = some t) (h : Presents t) : Presents s := by
  obtain ⟨ls',u,file,rest⟩ := h
  obtain ⟨ls'',v,supplied,hu,rest⟩ := rest
  refine ⟨ls ++ ls',u,file,ls'',v,supplied,?_,rest⟩
  rw [exec_append, he]
  exact hu

/-- The creation is completed first. -/
theorem Inv.presents_created {file : ℕ} (hs : Inv s) (hnamed : s.outside.named = some file) (hi : Creates s i file) : Presents s := by
  obtain ⟨supplied,secret,htask⟩ := hi
  let draw : SecretDraw := ⟨sampleSecret,43,false⟩
  obtain ⟨t,ht,h⟩ := Database.exists_ran bootstraps draw htask rfl rfl
  have he : exec (Database.step bootstraps) [.run i draw] s = some t := by
    rw [exec, ht]
    rfl
  refine (presents_of_begun file (hs.quiet.step bootstraps_detached ht) ?_ ⟨secret,43,by omega,?_⟩).behind he
  · rw [h.outside]
    exact hnamed
  · rw [h.outside]
    exact NamedFile.write_content_self _ _ _

/-- A first call leaves the file behind. -/
theorem Inv.presents_first (hs : Inv s) (hfree : s.outside.named = none) : Presents s := by
  obtain ⟨f,hcreate⟩ := NamedFile.create_isSome hfree
  obtain ⟨-,-,hnamed,-⟩ := NamedFile.create_eq_some hcreate
  let text := sampleSecret.text.toList.take 43
  let draw : SecretDraw := ⟨sampleSecret,43,false⟩
  have hexists : resume "" s.outside draw .pathExists = goto .create s.outside := by
    simp only [resume, hfree]
    rfl
  have hcreates : resume "" s.outside draw .create = goto (.write s.outside.count sampleSecret) f := by
    simp only [resume, hcreate]
    rfl
  have hwrite : resume "" f draw (.write s.outside.count sampleSecret) = goto .close (f.write s.outside.count text) := rfl
  let x : Database.Solo Unit (NamedFile Char) SecretPc SecretResult := ⟨.at .close,(),(),false,f.write s.outside.count text⟩
  let draws : List SecretDraw := [draw,draw,draw,draw,draw]
  have hserve : bootstraps.serve "" draws ⟨.at .mkdir,s.db,s.working,false,s.outside⟩ = some x := by
    refine (serve_step rfl rfl rfl).trans ?_
    refine (serve_step rfl rfl rfl).trans ?_
    refine (serve_step rfl rfl hexists).trans ?_
    refine (serve_step rfl rfl hcreates).trans ?_
    refine (serve_step rfl rfl hwrite).trans ?_
    rfl
  have he := Database.exec_call_served hs.quiet.unlocked hserve
  refine (presents_of_begun s.outside.count ⟨rfl,fun i hi => ?_⟩ hnamed ⟨sampleSecret,43,by omega,?_⟩).behind he
  · have hi : s.count + 1 ≤ i := hi
    exact (Function.update_of_ne (by omega) _ _).trans (hs.quiet.fresh i (by omega))
  · exact NamedFile.write_content_self _ _ _

theorem Inv.presents (hs : Inv s) : Presents s := by
  cases hnamed : s.outside.named with
  | none => exact hs.presents_first hnamed
  | some file =>
    obtain hbegun | ⟨-,i,hi⟩ := hs.content file hnamed
    · exact presents_of_begun file hs.quiet hnamed hbegun
    · exact hs.presents_created hnamed hi

theorem noSecret_inv : Inv noSecret :=
  ⟨Database.State.initial_quiet _ _,fun _ _ ⟨_,_,h⟩ => (by cases h),fun _ h => (by cases h)⟩

/-! ## Both files -/

/-- Along a run every call of `_load_or_create` gets the one valid key, and the next one can,
exactly if each key file that is created is written whole before it is read; and whoever reads
the bootstrap secret can pass its check as long as no creation leaves the file empty. -/
theorem secret_files_sound (fernet : MasterKey.Fernet) (hdoc : fernet.Documented) :
    (∀ (ls : List MasterKey.KeyLabel) (t : MasterKey.KeyState),
      exec (Database.step (MasterKey.keyStore fernet)) ls MasterKey.noKey = some t →
        (ExecAll (Database.step (MasterKey.keyStore fernet)) (MasterKey.KeySound fernet) ls MasterKey.noKey ↔
          ExecOk (Database.step (MasterKey.keyStore fernet)) MasterKey.CreatesWhole ls MasterKey.noKey)) ∧
    ∀ ls : List SecretLabel, ExecOk (Database.step bootstraps) WritesSecret ls noSecret →
      ExecAll (Database.step bootstraps) Presents ls noSecret :=
  ⟨fun _ _ he => MasterKey.keys_sound_iff hdoc he,
    fun _ hok => hok.all (fun _ _ _ hs hok hstep => hs.step hok hstep) (fun _ hs => hs.presents) noSecret_inv⟩

def sampleFernet : MasterKey.Fernet := ⟨fun _ => List.replicate 43 65 ++ [61],fun key => key.length == 44⟩

theorem sampleFernet_documented : sampleFernet.Documented := by
  refine ⟨fun _ => rfl,fun _ => rfl,fun seed n hn => ?_⟩
  have hsize : (sampleFernet.generateKey seed).length = 44 := rfl
  simp only [sampleFernet, beq_eq_false_iff_ne, ne_eq]
  rw [List.length_take]
  change ¬min n 44 = 44
  omega

/-- The second call finds the key file that the first one has created, and reads it once it is written. -/
def racingKeys : List MasterKey.KeyLabel :=
  [.call ⟨0,.csrfToken⟩,.call ⟨1,.csrfToken⟩] ++ List.replicate 4 (.run 0 ⟨0,44⟩) ++ List.replicate 6 (.run 1 ⟨1,44⟩) ++
    [.run 0 ⟨0,44⟩,.run 1 ⟨1,44⟩,.run 0 ⟨0,44⟩]

/-- The second bootstrap finds the file that the first one has created, and supplies the secret once it is written. -/
def racingSecrets : List SecretLabel :=
  [.call "",.call sampleSecret.text] ++ List.replicate 4 (.run 0 ⟨sampleSecret,43,false⟩) ++
    List.replicate 5 (.run 1 ⟨sampleSecret,43,true⟩) ++ [.run 0 ⟨sampleSecret,43,false⟩,.run 1 ⟨sampleSecret,43,true⟩]

/-- `CreatesWhole` of the calls that there are. -/
def createsWhole : MasterKey.KeyLabel → MasterKey.KeyState → Bool
  | .call _, _ => true
  | .run i draw, s =>
    match s.tasks i with
    | some (_,.at (.write _ key)) => decide (key.length ≤ draw.written)
    | some (_,.at (.read file)) => (List.range s.count).all fun j =>
      match s.tasks j with
      | some (_,.at (.write other _)) => other != file
      | _ => true
    | _ => true
  | .abort _, _ | .restart _, _ => false

theorem createsWhole_of {l : MasterKey.KeyLabel} {s : MasterKey.KeyState} (hs : s.Quiet) (h : createsWhole l s = true) :
    MasterKey.CreatesWhole l s := by
  cases l with
  | call q => trivial
  | run i draw =>
    constructor
    · intro q file key hi
      simpa [createsWhole, hi] using h
    · rintro q file hi j ⟨q',key,hj⟩
      have hlt : j < s.count := by
        by_contra hle
        rw [hs.fresh j (Nat.not_lt.mp hle)] at hj
        cases hj
      simp only [createsWhole, hi, List.all_eq_true, List.mem_range] at h
      have hother := h j hlt
      rw [hj] at hother
      simp at hother
  | abort i => cases h
  | restart n => cases h

theorem racingKeys_whole : ExecOk (Database.step (MasterKey.keyStore sampleFernet)) MasterKey.CreatesWhole racingKeys MasterKey.noKey := by
  have hchecked : ExecOk (Database.step (MasterKey.keyStore sampleFernet)) (fun l s => createsWhole l s = true) racingKeys MasterKey.noKey := by
    decide +kernel
  refine ExecOk.imp (I := Database.State.Quiet) ?_ ?_ (Database.State.initial_quiet _ _) hchecked
  · exact fun _ _ _ hs hstep => hs.step (MasterKey.keyStore_detached sampleFernet) hstep
  · exact fun _ _ hs hwhole => createsWhole_of hs hwhole

theorem racingSecrets_written : ExecOk (Database.step bootstraps) WritesSecret racingSecrets noSecret := by
  have hwritten : ∀ l ∈ racingSecrets, (∃ supplied, l = .call supplied) ∨ ∃ i commits, l = .run i ⟨sampleSecret,43,commits⟩ := by
    simp [racingSecrets]
  apply execOk_of_all
  intro l hl s
  rcases hwritten l hl with ⟨supplied,rfl⟩ | ⟨i,commits,rfl⟩
  · trivial
  · exact fun file _ _ => Nat.zero_lt_succ 42

theorem racingSecrets_run : (exec (Database.step bootstraps) racingSecrets noSecret).isSome = true := by decide +kernel

/-- Both calls get one key, and the second bootstrap passes its check. -/
theorem secret_files_sound_racing :
    ExecAll (Database.step (MasterKey.keyStore sampleFernet)) (MasterKey.KeySound sampleFernet) racingKeys MasterKey.noKey ∧
      ExecAll (Database.step bootstraps) Presents racingSecrets noSecret ∧
      ((after (Database.step bootstraps) racingSecrets noSecret racingSecrets_run).tasks 1).any (fun task => match task.2 with
        | .at .accepted => true
        | _ => false) = true := by
  obtain ⟨hkey,hsecret⟩ := secret_files_sound sampleFernet sampleFernet_documented
  exact ⟨(hkey racingKeys _ rfl).mpr racingKeys_whole,hsecret racingSecrets racingSecrets_written,by decide +kernel⟩

/-- The call is killed between the creation of the key file and its write. -/
def crashedKey : List MasterKey.KeyLabel := .call ⟨0,.csrfToken⟩ :: List.replicate 4 (.run 0 ⟨0,44⟩) ++ [.abort 0]

/-- A crash leaves an empty key file, and no call ever returns a key again. -/
theorem crashed_creation_unsound :
    ¬ ∀ (fernet : MasterKey.Fernet) (ls : List MasterKey.KeyLabel), fernet.Documented →
      ExecAll (Database.step (MasterKey.keyStore fernet)) (MasterKey.KeySound fernet) ls MasterKey.noKey := by
  intro h
  have hok := (MasterKey.keys_sound_iff sampleFernet_documented rfl).mp (h sampleFernet crashedKey sampleFernet_documented)
  obtain ⟨-,hok⟩ := hok
  replace hok := hok _ rfl
  iterate 4
    obtain ⟨-,hrest⟩ := hok
    replace hok := hrest _ rfl
  exact hok.1 0 ⟨⟨0,.csrfToken⟩,_,rfl⟩

end AgentGraph.Security.SecretFiles
