import AgentGraph.Foundation.Database
import AgentGraph.Foundation.NamedFile

/-! # The local master key

`MasterKeyStore`, from one file-system call to the next, in any number of threads and
processes. The key file is created exclusively and then written; whoever finds it reads it.
-/
set_option autoImplicit false
namespace AgentGraph.Security.MasterKey
open Transition

abbrev Bytes := List UInt8

abbrev StoreId := Nat

/-- `cryptography.fernet.Fernet`: the keys that it generates from what is drawn at random,
and the ones that its constructor takes. -/
structure Fernet where
  generateKey : Nat → Bytes
  accepts : Bytes → Bool

/-- A key is 32 bytes in base64, and nothing shorter is one. -/
structure Fernet.Documented (fernet : Fernet) : Prop where
  size : ∀ seed, (fernet.generateKey seed).length = 44
  generated : ∀ seed, fernet.accepts (fernet.generateKey seed) = true
  refused : ∀ seed n, n < 44 → fernet.accepts ((fernet.generateKey seed).take n) = false

/-- The key file, the key that each store has cached, and every key that a call has returned. -/
structure KeyFiles where
  file : NamedFile UInt8
  cached : StoreId → Option Bytes
  returned : List Bytes

/-- Both load the key; only `fernet` looks into the cache and fills it. -/
inductive KeyUse
  | fernet
  | csrfToken
deriving DecidableEq

structure KeyCall where
  store : StoreId
  use : KeyUse
deriving DecidableEq

inductive KeyPc
  | cache
  | mkdir
  | chmodParent
  | create
  | write (file : ℕ) (key : Bytes)
  | close (key : Bytes)
  | chmod
  | lookup
  | read (file : ℕ)

inductive KeyResult
  | key (key : Bytes)
  | vaultError
  | fileNotFound
  /-- The process crashes, or a file-system call raises. -/
  | stopped
deriving DecidableEq

/-- What `generate_key` draws, and how many bytes a write gets to the file. -/
structure KeyDraw where
  seed : Nat
  written : ℕ

abbrev KeyEffect := Database.Effect Unit KeyFiles KeyPc KeyResult

namespace KeyEffect

def goto (pc : KeyPc) (o : KeyFiles) : KeyEffect := ⟨.at pc,.keep,o⟩
def finish (result : KeyResult) (o : KeyFiles) : KeyEffect := ⟨.done result,.keep,o⟩

end KeyEffect

open KeyEffect

/-- `Fernet(key)`, and what the caller does with the key. -/
def returnKey (fernet : Fernet) (q : KeyCall) (o : KeyFiles) (key : Bytes) : KeyEffect :=
  if fernet.accepts key then
    finish (.key key)
      { o with
        cached := if q.use = .fernet then Function.update o.cached q.store (some key) else o.cached
        returned := o.returned ++ [key] }
  else finish .vaultError o

/-- `_load_or_create`, below `fernet` and `csrf_token`. -/
def resume (fernet : Fernet) (q : KeyCall) (o : KeyFiles) (draw : KeyDraw) : KeyPc → KeyEffect
  | .cache =>
    match q.use, o.cached q.store with
    | .fernet, some key => finish (.key key) { o with returned := o.returned ++ [key] }
    | _, _ => goto .mkdir o
  | .mkdir => goto .chmodParent o
  | .chmodParent => goto .create o
  | .create =>
    match o.file.create with
    | none => goto .chmod o
    | some (f,file) => goto (.write file (fernet.generateKey draw.seed)) { o with file := f }
  | .write file key => goto (.close key) { o with file := o.file.write file (key.take draw.written) }
  | .close key => returnKey fernet q o key
  | .chmod => if o.file.named.isSome then goto .lookup o else finish .fileNotFound o
  | .lookup =>
    match o.file.named with
    | none => finish .fileNotFound o
    | some file => goto (.read file) o
  | .read file => returnKey fernet q o (o.file.content file)

/-- The calls. A process that crashes loses what its stores have cached. -/
def keyStore (fernet : Fernet) : Database.Program Unit KeyFiles KeyCall KeyDraw KeyPc KeyResult where
  begin _ _ := .at .cache
  resume q o _ draw pc := some (resume fernet q o draw pc)
  abandon _ o _ := (o,.stopped)
  restart _ o := { o with cached := fun _ => none }

abbrev KeyState := Database.State Unit KeyFiles KeyCall KeyPc KeyResult

abbrev KeyLabel := Database.Label KeyCall KeyDraw

def noKey : KeyState := Database.State.initial () ⟨.absent,fun _ => none,[]⟩

variable (fernet : Fernet)

/-- The call that begins next can return a key that it has loaded. -/
def Loadable (s : KeyState) : Prop :=
  ∃ ls t q key, exec (Database.step (keyStore fernet)) ls s = some t ∧ t.tasks s.count = some (q,.done (.key key)) ∧ q.use = .csrfToken

/-- Every call returns a key that is valid, unless it is stopped, all return the same, and
so can the next one. -/
structure KeySound (s : KeyState) : Prop where
  ended : ∀ i q result, s.tasks i = some (q,.done result) → result = .stopped ∨ ∃ key, result = .key key
  valid : ∀ key ∈ s.outside.returned, fernet.accepts key = true
  agree : ∀ key ∈ s.outside.returned, ∀ key' ∈ s.outside.returned, key = key'
  loadable : Loadable fernet s

/-- Call `i` has created `file` and not written it. -/
def Creates (s : KeyState) (i file : ℕ) : Prop := ∃ q key, s.tasks i = some (q,.at (.write file key))

/-- A file that has been created is written whole, and it is not read before. -/
def CreatesWhole (l : KeyLabel) (s : KeyState) : Prop :=
  match l with
  | .call _ => True
  | .run i draw =>
    (∀ q file key, s.tasks i = some (q,.at (.write file key)) → key.length ≤ draw.written) ∧
      ∀ q file, s.tasks i = some (q,.at (.read file)) → ∀ j, ¬Creates s j file
  | .abort i => ∀ file, ¬Creates s i file
  | .restart _ => ∀ i file, ¬Creates s i file

/-! ## How far the creation has come -/

inductive Phase
  | absent
  | creating (i : ℕ)
  | published (key : Bytes)

def Phase.Holds (o : KeyFiles) : Phase → Prop
  | absent => o.file.named = none
  | creating _ => o.file.Holds []
  | published key => o.file.Holds key ∧ fernet.accepts key = true

/-- The call may be here in this phase. -/
def KeyPc.Fits (phase : Phase) (i : ℕ) (o : KeyFiles) : KeyPc → Prop
  | write file key => phase = .creating i ∧ o.file.named = some file ∧ ∃ seed, key = fernet.generateKey seed
  | close key => phase = .published key
  | chmod | lookup => o.file.named ≠ none
  | read file => o.file.named = some file
  | cache | mkdir | chmodParent | create => True

structure Inv (phase : Phase) (s : KeyState) : Prop where
  quiet : s.Quiet
  file : phase.Holds fernet s.outside
  returned : ∀ key ∈ s.outside.returned, phase = .published key
  cached : ∀ store key, s.outside.cached store = some key → phase = .published key
  creator : ∀ i, phase = .creating i → ∃ file, Creates s i file
  running : ∀ i q pc, s.tasks i = some (q,.at pc) → pc.Fits fernet phase i s.outside
  ended : ∀ i q result, s.tasks i = some (q,.done result) → result = .stopped ∨ ∃ key, result = .key key ∧ phase = .published key

theorem keyStore_detached : (keyStore fernet).Detached := by
  intro q o db draw pc e he
  cases he
  cases pc <;> simp only [resume, returnKey] <;> (repeat' split) <;> rfl

variable {fernet} {phase phase' : Phase} {s t : KeyState} {l : KeyLabel} {i : ℕ} {q : KeyCall} {pc : KeyPc} {e : KeyEffect}

/-- What the step of a call owes to the next phase. -/
theorem Inv.ran (hs : Inv fernet phase s) (h : Database.Ran (keyStore fernet) s l i q pc e t) (hquiet : t.Quiet)
    (hfile : phase'.Holds fernet e.outside) (hreturned : ∀ key ∈ e.outside.returned, phase' = .published key)
    (hcached : ∀ store key, e.outside.cached store = some key → phase' = .published key)
    (hkept : ∀ key, phase = .published key → phase' = .published key)
    (hothers : ∀ j (pc : KeyPc), j ≠ i → pc.Fits fernet phase j s.outside → pc.Fits fernet phase' j e.outside)
    (hcreator : ∀ j, phase' = .creating j → j ≠ i ∧ phase = .creating j ∨ j = i ∧ ∃ file key, e.next = .at (.write file key))
    (hnext : ∀ pc, e.next = .at pc → pc.Fits fernet phase' i e.outside)
    (hended : ∀ result, e.next = .done result → result = .stopped ∨ ∃ key, result = .key key ∧ phase' = .published key) :
    Inv fernet phase' t := by
  refine ⟨hquiet,?_,?_,?_,fun j hj => ?_,fun j q' pc' ht => ?_,fun j q' result ht => ?_⟩
  · rw [h.outside]
    exact hfile
  · rw [h.outside]
    exact hreturned
  · rw [h.outside]
    exact hcached
  · obtain ⟨hne,hold⟩ | ⟨rfl,file,key,hwrite⟩ := hcreator j hj
    · obtain ⟨file,q',key,ht⟩ := hs.creator j hold
      exact ⟨file,q',key,by rw [h.tasks,Function.update_of_ne hne,ht]⟩
    · exact ⟨file,q,key,by rw [h.tasks,Function.update_self,hwrite]⟩
  · rw [h.outside]
    obtain ⟨rfl,hx⟩ | ⟨hne,ht⟩ := h.task_cases ht
    · obtain ⟨rfl,hpc⟩ := Prod.mk.inj hx
      exact hnext pc' hpc.symm
    · exact hothers j pc' hne (hs.running j q' pc' ht)
  · obtain ⟨rfl,hx⟩ | ⟨-,ht⟩ := h.task_cases ht
    · obtain ⟨rfl,hr⟩ := Prod.mk.inj hx
      exact hended result hr.symm
    · obtain hstopped | ⟨key,hkey,hphase⟩ := hs.ended j q' result ht
      · exact .inl hstopped
      · exact .inr ⟨key,hkey,hkept key hphase⟩

/-- A step that leaves the file alone. -/
theorem Inv.stays (hs : Inv fernet phase s) (h : Database.Ran (keyStore fernet) s l i q pc e t) (hquiet : t.Quiet)
    (hpc : ∀ file key, pc ≠ .write file key) (hfile : e.outside.file = s.outside.file)
    (hreturned : ∀ key ∈ e.outside.returned, phase = .published key)
    (hcached : ∀ store key, e.outside.cached store = some key → phase = .published key)
    (hnext : ∀ pc, e.next = .at pc → pc.Fits fernet phase i s.outside)
    (hended : ∀ result, e.next = .done result → result = .stopped ∨ ∃ key, result = .key key ∧ phase = .published key) :
    Inv fernet phase t := by
  have hfits (j : ℕ) (pc : KeyPc) : pc.Fits fernet phase j e.outside ↔ pc.Fits fernet phase j s.outside := by
    cases pc <;> simp only [KeyPc.Fits, hfile]
  refine hs.ran h hquiet ?_ hreturned hcached (fun _ hkey => hkey) (fun j pc _ hj => (hfits j pc).mpr hj) (fun j hj => .inl ⟨?_,hj⟩)
    (fun pc hpc => (hfits i pc).mpr (hnext pc hpc)) hended
  · have hold := hs.file
    cases phase <;> simpa only [Phase.Holds, hfile] using hold
  · rintro rfl
    obtain ⟨file,q',key,ht⟩ := hs.creator j hj
    rw [h.task] at ht
    cases ht
    exact hpc file key rfl

/-- A valid key is returned to the caller. -/
theorem Inv.returns {key : Bytes} (hs : Inv fernet (.published key) s)
    (h : Database.Ran (keyStore fernet) s l i q pc (returnKey fernet q s.outside key) t) (hquiet : t.Quiet)
    (hpc : ∀ file key, pc ≠ .write file key) : Inv fernet (.published key) t := by
  have heffect : returnKey fernet q s.outside key = finish (.key key)
      { s.outside with
        cached := if q.use = .fernet then Function.update s.outside.cached q.store (some key) else s.outside.cached
        returned := s.outside.returned ++ [key] } := if_pos hs.file.2
  rw [heffect] at h
  refine hs.stays h hquiet hpc rfl (fun key' hkey => ?_) (fun store key' hkey => ?_) (fun pc' hpc => (by cases hpc)) fun result hr => ?_
  · obtain hold | hnew := List.mem_append.mp hkey
    · exact hs.returned key' hold
    · rw [List.mem_singleton.mp hnew]
  · simp only [finish] at hkey
    split at hkey
    · obtain rfl | hne := eq_or_ne store q.store
      · rw [Function.update_self] at hkey
        rw [Option.some.inj hkey]
      · rw [Function.update_of_ne hne] at hkey
        exact hs.cached store key' hkey
    · exact hs.cached store key' hkey
  · cases hr
    exact .inr ⟨key,rfl,rfl⟩

theorem Inv.goes {pc' : KeyPc} (hs : Inv fernet phase s) (h : Database.Ran (keyStore fernet) s l i q pc (goto pc' s.outside) t)
    (hquiet : t.Quiet) (hpc : ∀ file key, pc ≠ .write file key) (hnext : pc'.Fits fernet phase i s.outside) : Inv fernet phase t := by
  refine hs.stays h hquiet hpc rfl hs.returned hs.cached (fun pc'' hpc => ?_) (fun result hr => (by cases hr))
  cases hpc
  exact hnext

/-- The key is written whole. -/
theorem Inv.publishes {file : ℕ} {key : Bytes} {draw : KeyDraw} (hdoc : fernet.Documented) (hs : Inv fernet phase s)
    (h : Database.Ran (keyStore fernet) s l i q (.write file key) (resume fernet q s.outside draw (.write file key)) t)
    (hquiet : t.Quiet) (hwhole : key.length ≤ draw.written) : Inv fernet (.published key) t := by
  obtain ⟨hphase,hnamed,seed,rfl⟩ := hs.running i q _ h.task
  subst hphase
  have hnone (key' : Bytes) : Phase.creating i ≠ .published key' := fun hkey => (by cases hkey)
  refine hs.ran h hquiet ⟨⟨file,hnamed,?_⟩,hdoc.generated seed⟩ (fun key' hkey => absurd (hs.returned key' hkey) (hnone key'))
    (fun store key' hkey => absurd (hs.cached store key' hkey) (hnone key')) (fun key' hkey => absurd hkey (hnone key'))
    (fun j pc hne hj => ?_) (fun j hj => (by cases hj)) (fun pc hpc => ?_) fun result hr => (by cases hr)
  · simp only [resume, goto]
    rw [List.take_of_length_le hwhole]
    exact NamedFile.write_content_self _ _ _
  · cases pc with
    | write file' key' => exact absurd (Phase.creating.inj hj.1).symm hne
    | close key' => exact absurd hj (hnone key')
    | _ => exact hj
  · cases hpc
    exact rfl

/-- The name was free. -/
theorem Inv.founds {f : NamedFile UInt8} {file : ℕ} {draw : KeyDraw} (hs : Inv fernet phase s) (hcreate : s.outside.file.create = some (f,file))
    (h : Database.Ran (keyStore fernet) s l i q .create
      (goto (.write file (fernet.generateKey draw.seed)) { s.outside with file := f }) t)
    (hquiet : t.Quiet) : Inv fernet (.creating i) t := by
  obtain ⟨hfree,rfl,hnamed,hcontent,-⟩ := NamedFile.create_eq_some hcreate
  have hnone (key : Bytes) : phase ≠ .published key := by
    rintro rfl
    obtain ⟨⟨file,hfile,-⟩,-⟩ := hs.file
    rw [hfree] at hfile
    cases hfile
  refine hs.ran h hquiet ⟨_,hnamed,?_⟩ (fun key hkey => absurd (hs.returned key hkey) (hnone key))
    (fun store key hkey => absurd (hs.cached store key hkey) (hnone key)) (fun key hkey => absurd hkey (hnone key))
    (fun j pc hne hj => ?_) (fun j hj => ?_) (fun pc hpc => ?_) fun result hr => (by cases hr)
  · simp only [goto, hcontent]
    exact Function.update_self _ _ _
  · -- nobody has found the file
    cases pc with
    | write file key =>
      rw [KeyPc.Fits, hfree] at hj
      cases hj.2.1
    | close key => exact absurd hj (hnone key)
    | chmod | lookup => exact absurd hfree hj
    | read file =>
      rw [KeyPc.Fits, hfree] at hj
      cases hj
    | _ => trivial
  · cases hj
    exact .inr ⟨rfl,_,_,rfl⟩
  · cases hpc
    exact ⟨rfl,hnamed,draw.seed,rfl⟩

/-- A new call has done nothing yet. -/
theorem Inv.called (hs : Inv fernet phase s) (q : KeyCall) (hquiet : t.Quiet)
    (ht : t = { s with tasks := Function.update s.tasks s.count (some (q,.at .cache)), count := s.count + 1 }) : Inv fernet phase t := by
  subst ht
  refine ⟨hquiet,hs.file,hs.returned,hs.cached,fun i hi => ?_,fun i q' pc ht => ?_,fun i q' result ht => ?_⟩
  · obtain ⟨file,q',key,ht⟩ := hs.creator i hi
    exact ⟨file,q',key,(Function.update_of_ne (hs.quiet.ne_count ht) _ _).trans ht⟩
  · obtain ⟨-,hx⟩ | ⟨-,ht⟩ := Database.update_cases ht
    · cases hx
      trivial
    · exact hs.running i q' pc ht
  · obtain ⟨-,hx⟩ | ⟨-,ht⟩ := Database.update_cases ht
    · cases hx
    · exact hs.ended i q' result ht

/-- A crash while nobody is about to write the file. -/
theorem Inv.restarted (hs : Inv fernet phase s) (hnone : ∀ i file, ¬Creates s i file) (hquiet : t.Quiet)
    (ht : t = { s with writer := none, outside := { s.outside with cached := fun _ => none }, tasks := fun _ => none }) :
    Inv fernet phase t := by
  subst ht
  refine ⟨hquiet,?_,hs.returned,fun store key hkey => (by cases hkey),fun i hi => ?_,fun _ _ _ ht => (by cases ht),
    fun _ _ _ ht => (by cases ht)⟩
  · have hold := hs.file
    cases phase <;> exact hold
  · obtain ⟨file,hcreates⟩ := hs.creator i hi
    exact absurd hcreates (hnone i file)

/-- A permitted step. -/
theorem Inv.step (hdoc : fernet.Documented) (hs : Inv fernet phase s) (hok : CreatesWhole l s)
    (hstep : Database.step (keyStore fernet) l s = some t) : ∃ phase, Inv fernet phase t := by
  have hquiet := hs.quiet.step (keyStore_detached fernet) hstep
  cases Database.step_moved hstep with
  | called q label state => exact ⟨phase,hs.called q hquiet state⟩
  | restarted draw label state =>
    subst label
    exact ⟨phase,hs.restarted hok hquiet state⟩
  | ran i q pc e h =>
    obtain ⟨draw,rfl,he⟩ | ⟨rfl,rfl⟩ := h.label
    · cases he
      cases pc with
      | cache =>
        simp only [resume] at h
        split at h
        next key huse hcached =>
          have hphase := hs.cached _ key hcached
          refine ⟨phase,hs.stays h hquiet (by simp) rfl (fun key' hkey => ?_) hs.cached (fun pc hpc => (by cases hpc)) fun result hr => ?_⟩
          · obtain hold | hnew := List.mem_append.mp hkey
            · exact hs.returned key' hold
            · rw [List.mem_singleton.mp hnew]
              exact hphase
          · cases hr
            exact .inr ⟨key,rfl,hphase⟩
        · exact ⟨phase,hs.goes h hquiet (by simp) trivial⟩
      | mkdir => exact ⟨phase,hs.goes h hquiet (by simp) trivial⟩
      | chmodParent => exact ⟨phase,hs.goes h hquiet (by simp) trivial⟩
      | create =>
        simp only [resume] at h
        split at h
        next hcreate =>
          refine ⟨phase,hs.goes h hquiet (by simp) fun hfree => ?_⟩
          obtain ⟨f,hf⟩ := NamedFile.create_isSome hfree
          rw [hcreate] at hf
          cases hf
        next f file hcreate => exact ⟨_,hs.founds hcreate h hquiet⟩
      | write file key => exact ⟨_,hs.publishes hdoc h hquiet (hok.1 q file key h.task)⟩
      | close key =>
        have hphase : phase = .published key := hs.running i q _ h.task
        subst hphase
        exact ⟨_,hs.returns h hquiet (by simp)⟩
      | chmod =>
        have hnamed : s.outside.file.named.isSome = true := Option.isSome_iff_ne_none.mpr (hs.running i q _ h.task)
        simp only [resume, hnamed, if_true] at h
        exact ⟨phase,hs.goes h hquiet (by simp) (Option.isSome_iff_ne_none.mp hnamed)⟩
      | lookup =>
        have hnamed : s.outside.file.named ≠ none := hs.running i q _ h.task
        simp only [resume] at h
        split at h
        next hfree => exact absurd hfree hnamed
        next file hfile => exact ⟨phase,hs.goes h hquiet (by simp) hfile⟩
      | read file =>
        have hnamed : s.outside.file.named = some file := hs.running i q _ h.task
        have hfile := hs.file
        cases phase with
        | absent =>
          rw [Phase.Holds, hnamed] at hfile
          cases hfile
        | creating j =>
          obtain ⟨file',q',key,ht⟩ := hs.creator j rfl
          obtain ⟨-,hnamed',-⟩ := hs.running j q' _ ht
          obtain rfl := Option.some.inj (hnamed.symm.trans hnamed')
          exact absurd ⟨q',key,ht⟩ (hok.2 q file h.task j)
        | published key =>
          obtain ⟨file',hnamed',hcontent⟩ := hfile.1
          obtain rfl := Option.some.inj (hnamed.symm.trans hnamed')
          simp only [resume, hcontent] at h
          exact ⟨_,hs.returns h hquiet (by simp)⟩
    · refine ⟨phase,hs.stays h hquiet (fun file key hpc => ?_) rfl hs.returned hs.cached (fun pc hpc => (by cases hpc)) fun result hr => ?_⟩
      · subst hpc
        exact hok file ⟨q,key,h.task⟩
      · cases hr
        exact .inl rfl

/-! ## The next call -/

/-- A call that nobody disturbs returns a key. -/
theorem loadable_of_serve (draws : List KeyDraw) {x : Database.Solo Unit KeyFiles KeyPc KeyResult} {key : Bytes} (hs : s.Quiet)
    (hserve : (keyStore fernet).serve ⟨0,.csrfToken⟩ draws ⟨.at .cache,s.db,s.working,false,s.outside⟩ = some x)
    (hx : x.ctl = .done (.key key)) : Loadable fernet s := by
  refine ⟨.call ⟨0,.csrfToken⟩ :: draws.map fun draw => .run s.count draw,s.alone ⟨0,.csrfToken⟩ x,⟨0,.csrfToken⟩,key,?_,?_,rfl⟩
  · exact Database.exec_call_served hs.unlocked hserve
  · rw [← hx]
    exact Function.update_self _ _ _

theorem serve_step {o : KeyFiles} {x : Database.Solo Unit KeyFiles KeyPc KeyResult} {draw : KeyDraw} {draws : List KeyDraw}
    (hx : x.ctl = .at pc) (ho : x.outside = o) (he : resume fernet q o draw pc = e) :
    (keyStore fernet).serve q (draw :: draws) x = (keyStore fernet).serve q draws (x.apply e) := by
  subst ho
  exact Database.serve_cons hx (congrArg some he)

theorem Inv.loads {key : Bytes} (hs : Inv fernet (.published key) s) : Loadable fernet s := by
  obtain ⟨⟨file,hnamed,hcontent⟩,haccepts⟩ := hs.file
  let q : KeyCall := ⟨0,.csrfToken⟩
  let draw : KeyDraw := ⟨0,0⟩
  let o : KeyFiles := { s.outside with returned := s.outside.returned ++ [key] }
  have hcreate : resume fernet q s.outside draw .create = goto .chmod s.outside := by
    simp only [resume, NamedFile.create_taken hnamed]
  have hchmod : resume fernet q s.outside draw .chmod = goto .lookup s.outside := by
    simp only [resume, hnamed, Option.isSome_some, if_true]
  have hlookup : resume fernet q s.outside draw .lookup = goto (.read file) s.outside := by simp only [resume, hnamed]
  have hread : resume fernet q s.outside draw (.read file) = finish (.key key) o := by
    simp only [resume, hcontent]
    exact if_pos haccepts
  refine loadable_of_serve [draw,draw,draw,draw,draw,draw,draw] (x := ⟨.done (.key key),(),(),false,o⟩) hs.quiet ?_ rfl
  refine (serve_step rfl rfl rfl).trans ?_
  refine (serve_step rfl rfl rfl).trans ?_
  refine (serve_step rfl rfl rfl).trans ?_
  refine (serve_step rfl rfl hcreate).trans ?_
  refine (serve_step rfl rfl hchmod).trans ?_
  refine (serve_step rfl rfl hlookup).trans ?_
  refine (serve_step rfl rfl hread).trans ?_
  rfl

theorem Inv.loadsFirst (hdoc : fernet.Documented) (hs : Inv fernet .absent s) : Loadable fernet s := by
  obtain ⟨f,hfree⟩ := NamedFile.create_isSome hs.file
  let q : KeyCall := ⟨0,.csrfToken⟩
  let draw : KeyDraw := ⟨0,44⟩
  let key := fernet.generateKey 0
  let created : KeyFiles := { s.outside with file := f }
  let written : KeyFiles := { s.outside with file := f.write s.outside.file.count (key.take 44) }
  let o : KeyFiles := { written with returned := s.outside.returned ++ [key] }
  have hcreate : resume fernet q s.outside draw .create = goto (.write s.outside.file.count key) created := by
    simp only [resume, hfree]
    rfl
  have hclose : resume fernet q written draw (.close key) = finish (.key key) o := if_pos (hdoc.generated 0)
  refine loadable_of_serve [draw,draw,draw,draw,draw,draw] (x := ⟨.done (.key key),(),(),false,o⟩) hs.quiet ?_ rfl
  refine (serve_step rfl rfl rfl).trans ?_
  refine (serve_step rfl rfl rfl).trans ?_
  refine (serve_step rfl rfl rfl).trans ?_
  refine (serve_step rfl rfl hcreate).trans ?_
  refine (serve_step rfl rfl rfl).trans ?_
  refine (serve_step rfl rfl hclose).trans ?_
  rfl

/-- The creation is completed first. -/
theorem Inv.loadsBehind (hdoc : fernet.Documented) (hs : Inv fernet (.creating i) s) : Loadable fernet s := by
  obtain ⟨file,q,key,htask⟩ := hs.creator i rfl
  obtain ⟨-,-,seed,hkey⟩ := hs.running i q _ htask
  let draw : KeyDraw := ⟨0,44⟩
  obtain ⟨t,ht,h⟩ := Database.exists_ran (keyStore fernet) draw htask rfl rfl
  have hlength : key.length ≤ 44 := Nat.le_of_eq (by rw [hkey, hdoc.size])
  have hpublished := hs.publishes hdoc h (hs.quiet.step (keyStore_detached fernet) ht) hlength
  obtain ⟨ls,u,q',key',he,hdone,huse⟩ := hpublished.loads
  refine ⟨.run i draw :: ls,u,q',key',?_,?_,huse⟩
  · rw [exec, ht]
    exact he
  · rw [← h.count]
    exact hdone

theorem Inv.sound (hdoc : fernet.Documented) (hs : Inv fernet phase s) : KeySound fernet s := by
  refine ⟨fun i q result ht => ?_,fun key hkey => ?_,fun key hkey key' hkey' => ?_,?_⟩
  · obtain hstopped | ⟨key,hkey,-⟩ := hs.ended i q result ht
    · exact .inl hstopped
    · exact .inr ⟨key,hkey⟩
  · have hfile := hs.file
    rw [hs.returned key hkey] at hfile
    exact hfile.2
  · exact Phase.published.inj ((hs.returned key hkey).symm.trans (hs.returned key' hkey'))
  · cases phase with
    | absent => exact hs.loadsFirst hdoc
    | creating i => exact hs.loadsBehind hdoc
    | published key => exact hs.loads

/-! ## A file that nobody will write -/

/-- The file is no key, and nobody is about to write it; `n` is the number of the first call
that does not know of another. -/
structure Broken (fernet : Fernet) (n file : ℕ) (s : KeyState) : Prop where
  count : n ≤ s.count
  named : s.outside.file.named = some file
  refused : fernet.accepts (s.outside.file.content file) = false
  unwritten : ∀ i file, ¬Creates s i file
  running : ∀ i q pc, n ≤ i → s.tasks i = some (q,.at pc) → (∀ key, pc ≠ .close key) ∧ ∀ other, pc = .read other → other = file
  ended : ∀ i q key, n ≤ i → q.use = .csrfToken → s.tasks i ≠ some (q,.done (.key key))

/-- What the step of a call does that does not write to the file. -/
theorem resume_taken {o : KeyFiles} {draw : KeyDraw} {file : ℕ} (hnamed : o.file.named = some file)
    (hpc : ∀ file key, pc ≠ .write file key) : (resume fernet q o draw pc).outside.file = o.file ∧
      (∀ file key, (resume fernet q o draw pc).next ≠ .at (.write file key)) ∧
      (∀ key, (resume fernet q o draw pc).next ≠ .at (.close key)) ∧
      ∀ other, (resume fernet q o draw pc).next = .at (.read other) → other = file := by
  have hreturn (key : Bytes) : (returnKey fernet q o key).outside.file = o.file ∧ ∃ result, (returnKey fernet q o key).next = .done result := by
    unfold returnKey
    split <;> exact ⟨rfl,_,rfl⟩
  cases pc with
  | write file key => exact absurd rfl (hpc file key)
  | close key =>
    obtain ⟨hfile,result,hnext⟩ := hreturn key
    exact ⟨hfile,by simp [resume, hnext],by simp [resume, hnext],by simp [resume, hnext]⟩
  | read other =>
    obtain ⟨hfile,result,hnext⟩ := hreturn (o.file.content other)
    exact ⟨hfile,by simp [resume, hnext],by simp [resume, hnext],by simp [resume, hnext]⟩
  | cache =>
    simp only [resume]
    split <;> simp [goto, finish]
  | create => simp [resume, NamedFile.create_taken hnamed, goto]
  | mkdir | chmodParent | chmod | lookup => simp [resume, hnamed, goto]

/-- A call that finds no key in the file returns none. -/
theorem resume_refused {o : KeyFiles} {draw : KeyDraw} {file : ℕ} (huse : q.use = .csrfToken) (hnamed : o.file.named = some file)
    (hrefused : fernet.accepts (o.file.content file) = false) (hclose : ∀ key, pc ≠ .close key)
    (hread : ∀ other, pc = .read other → other = file) (key : Bytes) : (resume fernet q o draw pc).next ≠ .done (.key key) := by
  cases pc with
  | close key => exact absurd rfl (hclose key)
  | read other =>
    obtain rfl := hread other rfl
    simp [resume, returnKey, hrefused, finish]
  | cache => simp [resume, huse, goto]
  | create => simp [resume, NamedFile.create_taken hnamed, goto]
  | write | mkdir | chmodParent | chmod | lookup => simp [resume, hnamed, goto]

/-- Nothing mends the file, and no call returns what it holds. -/
theorem Broken.step {n file : ℕ} (hs : Broken fernet n file s) (hstep : Database.step (keyStore fernet) l s = some t) :
    Broken fernet n file t := by
  cases Database.step_moved hstep with
  | called q label state =>
    subst state
    refine ⟨Nat.le_succ_of_le hs.count,hs.named,hs.refused,fun i other hcreates => ?_,fun i q' pc hi ht => ?_,fun i q' key hi huse ht => ?_⟩
    · obtain ⟨q',key,ht⟩ := hcreates
      obtain ⟨-,hx⟩ | ⟨-,ht⟩ := Database.update_cases ht
      · cases hx
      · exact hs.unwritten i other ⟨q',key,ht⟩
    · obtain ⟨-,hx⟩ | ⟨-,ht⟩ := Database.update_cases ht
      · cases hx
        exact ⟨fun _ h => (by cases h),fun _ h => (by cases h)⟩
      · exact hs.running i q' pc hi ht
    · obtain ⟨-,hx⟩ | ⟨-,ht⟩ := Database.update_cases ht
      · cases hx
      · exact hs.ended i q' key hi huse ht
  | restarted draw label state =>
    subst state
    exact ⟨hs.count,hs.named,hs.refused,fun _ _ ⟨_,_,ht⟩ => (by cases ht),fun _ _ _ _ ht => (by cases ht),fun _ _ _ _ _ ht => (by cases ht)⟩
  | ran i q pc e h =>
    have hpc (other : ℕ) (key : Bytes) : pc ≠ .write other key := by
      rintro rfl
      exact hs.unwritten i other ⟨q,key,h.task⟩
    obtain ⟨hfile,hwrite,hclose,hread,hkey⟩ : e.outside.file = s.outside.file ∧ (∀ file key, e.next ≠ .at (.write file key)) ∧
        (∀ key, e.next ≠ .at (.close key)) ∧ (∀ other, e.next = .at (.read other) → other = file) ∧
        ∀ key, n ≤ i → q.use = .csrfToken → e.next ≠ .done (.key key) := by
      obtain ⟨draw,-,he⟩ | ⟨-,rfl⟩ := h.label
      · cases he
        obtain ⟨hfile,hwrite,hclose,hread⟩ := resume_taken (o := s.outside) hs.named hpc
        refine ⟨hfile,hwrite,hclose,hread,fun key hi huse => ?_⟩
        obtain ⟨hclose,hread⟩ := hs.running i q pc hi h.task
        exact resume_refused huse hs.named hs.refused hclose hread key
      · exact ⟨rfl,fun _ _ h => (by cases h),fun _ h => (by cases h),fun _ h => (by cases h),fun _ _ _ h => (by cases h)⟩
    refine ⟨?_,?_,?_,fun j other hcreates => ?_,fun j q' pc' hj ht => ?_,fun j q' key hj huse ht => ?_⟩
    · rw [h.count]
      exact hs.count
    · rw [h.outside, hfile]
      exact hs.named
    · rw [h.outside, hfile]
      exact hs.refused
    · obtain ⟨q',key,ht⟩ := hcreates
      obtain ⟨-,hx⟩ | ⟨-,ht⟩ := h.task_cases ht
      · exact hwrite other key (Prod.mk.inj hx).2.symm
      · exact hs.unwritten j other ⟨q',key,ht⟩
    · obtain ⟨-,hx⟩ | ⟨-,ht⟩ := h.task_cases ht
      · have hnext := (Prod.mk.inj hx).2
        exact ⟨fun key hpc => hclose key (by rw [← hnext, hpc]),fun other hpc => hread other (by rw [← hnext, hpc])⟩
      · exact hs.running j q' pc' hj ht
    · obtain ⟨rfl,hx⟩ | ⟨-,ht⟩ := h.task_cases ht
      · obtain ⟨rfl,hnext⟩ := Prod.mk.inj hx
        exact hkey key hj huse hnext.symm
      · exact hs.ended j q' key hj huse ht

theorem Broken.not_loadable {file : ℕ} (hs : Broken fernet s.count file s) : ¬Loadable fernet s := by
  rintro ⟨ls,t,q,key,he,hdone,huse⟩
  have hreach := exec_reaches (execOk_anyStep ls s) he
  have ht := Reaches.invariant (I := Broken fernet s.count file) (fun _ _ _ hs _ hstep => hs.step hstep) hreach hs
  exact ht.ended s.count q key (Nat.le_refl _) huse hdone

theorem Broken.of_quiet (file : ℕ) (hs : s.Quiet) (hnamed : s.outside.file.named = some file)
    (hrefused : fernet.accepts (s.outside.file.content file) = false) (hunwritten : ∀ i file, ¬Creates s i file) :
    Broken fernet s.count file s := by
  refine ⟨Nat.le_refl _,hnamed,hrefused,hunwritten,fun i q pc hi ht => ?_,fun i q key hi _ ht => ?_⟩
  all_goals
    rw [hs.fresh i hi] at ht
    cases ht

theorem Fernet.Documented.empty (hdoc : fernet.Documented) : fernet.accepts [] = false := hdoc.refused 0 0 (by omega)

/-- The call that has created the file. -/
theorem Inv.creates {file : ℕ} (hs : Inv fernet phase s) (h : Creates s i file) :
    phase = .creating i ∧ s.outside.file.named = some file ∧ s.outside.file.content file = [] := by
  obtain ⟨q,key,ht⟩ := h
  obtain ⟨rfl,hnamed,-⟩ := hs.running i q _ ht
  obtain ⟨file',hnamed',hcontent⟩ := hs.file
  obtain rfl := Option.some.inj (hnamed.symm.trans hnamed')
  exact ⟨rfl,hnamed,hcontent⟩

/-- The call that has created the file goes on and leaves no key in it. -/
theorem Inv.breaks {file : ℕ} {key : Bytes} (hs : Inv fernet phase s) (h : Database.Ran (keyStore fernet) s l i q (.write file key) e t)
    (hquiet : t.Quiet) (hnamed : t.outside.file.named = some file) (hrefused : fernet.accepts (t.outside.file.content file) = false)
    (hnext : ∀ file key, e.next ≠ .at (.write file key)) : ¬Loadable fernet t := by
  refine (Broken.of_quiet file hquiet hnamed hrefused fun j other hcreates => ?_).not_loadable
  obtain ⟨q',key',ht⟩ := hcreates
  obtain ⟨-,hx⟩ | ⟨hne,ht⟩ := h.task_cases ht
  · exact hnext other key' (Prod.mk.inj hx).2.symm
  · obtain ⟨hphase,-⟩ := hs.creates ⟨q,key,h.task⟩
    obtain ⟨hphase',-⟩ := hs.creates ⟨q',key',ht⟩
    exact hne (Phase.creating.inj (hphase'.symm.trans hphase))

/-- A step that is not permitted. -/
theorem Inv.unsound (hdoc : fernet.Documented) (hs : Inv fernet phase s) (hok : ¬CreatesWhole l s)
    (hstep : Database.step (keyStore fernet) l s = some t) : ¬KeySound fernet t := by
  have hquiet := hs.quiet.step (keyStore_detached fernet) hstep
  cases l with
  | call q => exact absurd trivial hok
  | restart draw =>
    have hcreates : ∃ i file, Creates s i file := by
      by_contra hnone
      exact hok fun i file h => hnone ⟨i,file,h⟩
    obtain ⟨i,file,hcreates⟩ := hcreates
    obtain ⟨-,hnamed,hcontent⟩ := hs.creates hcreates
    obtain rfl := Option.some.inj hstep
    refine fun hsound => (Broken.of_quiet file hquiet hnamed ?_ ?_).not_loadable hsound.loadable
    · exact (congrArg fernet.accepts hcontent).trans hdoc.empty
    · rintro j other ⟨_,_,ht⟩
      cases ht
  | abort i =>
    have hcreates : ∃ file, Creates s i file := by
      by_contra hnone
      exact hok fun file h => hnone ⟨file,h⟩
    obtain ⟨file,hcreates⟩ := hcreates
    obtain ⟨-,hnamed,hcontent⟩ := hs.creates hcreates
    obtain ⟨q,key,htask⟩ := hcreates
    obtain ⟨q',pc,e,h⟩ := Database.step_ran hstep (.inr rfl)
    have htask' := h.task
    rw [htask] at htask'
    cases htask'
    obtain ⟨draw,hlabel,-⟩ | ⟨-,rfl⟩ := h.label
    · cases hlabel
    · refine fun hsound => hs.breaks h hquiet ?_ ?_ (fun _ _ hnext => (by cases hnext)) hsound.loadable
      · rw [h.outside]
        exact hnamed
      · rw [h.outside]
        exact (congrArg fernet.accepts hcontent).trans hdoc.empty
  | run i draw =>
    obtain ⟨q,pc,e,h⟩ := Database.step_ran hstep (.inl ⟨draw,rfl⟩)
    obtain ⟨draw',hlabel,he⟩ | ⟨hlabel,-⟩ := h.label
    · cases hlabel
      cases he
      by_cases hread : ∃ file, pc = .read file ∧ ∃ j, Creates s j file
      · obtain ⟨file,rfl,j,hcreates⟩ := hread
        obtain ⟨-,-,hcontent⟩ := hs.creates hcreates
        have hended : t.tasks i = some (q,.done .vaultError) := by
          rw [h.tasks, Function.update_self]
          simp [resume, returnKey, hcontent, hdoc.empty, finish]
        intro hsound
        obtain hstopped | ⟨key,hkey⟩ := hsound.ended i q _ hended
        · cases hstopped
        · cases hkey
      · by_cases hwrite : ∃ file key, pc = .write file key ∧ draw.written < key.length
        · obtain ⟨file,key,rfl,hshort⟩ := hwrite
          obtain ⟨-,hnamed,seed,rfl⟩ := hs.running i q _ h.task
          refine fun hsound => hs.breaks h hquiet ?_ ?_ (fun _ _ hnext => (by cases hnext)) hsound.loadable
          · rw [h.outside]
            exact hnamed
          · rw [h.outside]
            rw [hdoc.size] at hshort
            exact (congrArg fernet.accepts (NamedFile.write_content_self _ _ _)).trans (hdoc.refused seed _ hshort)
        · refine absurd ⟨fun q' file key ht => ?_,fun q' file ht j hcreates => ?_⟩ hok
          · rw [h.task] at ht
            cases ht
            exact Nat.le_of_not_lt fun hlt => hwrite ⟨file,key,rfl,hlt⟩
          · rw [h.task] at ht
            cases ht
            exact hread ⟨file,rfl,j,hcreates⟩
    · cases hlabel

theorem noKey_inv : Inv fernet .absent noKey :=
  ⟨Database.State.initial_quiet _ _,rfl,fun _ h => (by cases h),fun _ _ h => (by cases h),fun _ h => (by cases h),
    fun _ _ _ h => (by cases h),fun _ _ _ h => (by cases h)⟩

/-- Along a run every call gets the one valid key, and the next one can, exactly if each
file that is created is written whole before it is read. -/
theorem keys_sound_iff (hdoc : fernet.Documented) {ls : List KeyLabel} (he : exec (Database.step (keyStore fernet)) ls noKey = some t) :
    ExecAll (Database.step (keyStore fernet)) (KeySound fernet) ls noKey ↔
      ExecOk (Database.step (keyStore fernet)) CreatesWhole ls noKey := by
  refine execAll_iff_execOk_of (J := fun s => ∃ phase, Inv fernet phase s) (fun l s t hs _ hstep => ?_) ⟨.absent,noKey_inv⟩
    (noKey_inv.sound hdoc) he
  obtain ⟨phase,hs⟩ := hs
  have hiff : KeySound fernet t ↔ CreatesWhole l s := by
    refine ⟨fun hsound => ?_,fun hok => ?_⟩
    · by_contra hok
      exact hs.unsound hdoc hok hstep hsound
    · obtain ⟨phase',ht⟩ := hs.step hdoc hok hstep
      exact ht.sound hdoc
  exact ⟨hiff,fun hsound => hs.step hdoc (hiff.mp hsound) hstep⟩

end AgentGraph.Security.MasterKey
