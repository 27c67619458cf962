import AcppNetwork.Custody
import AcppNetwork.Runs

/-!
# The descriptors of the synchronous sockets

`sync::socket_base` owns a descriptor, its `fd_`: it gets one from `::socket`, from
`::accept` or from its constructor, loses it to the object it is moved to, and closes it.
A program has any number of these objects; the kernel gives the number of a descriptor
that was closed out again.

`move assignment` calls `::close` without the test that `close` makes, so that it may
close `-1`; the kernel does nothing then.  The kernel keeps the log of what was
obtained and of every call of `::close`.
-/
namespace AcppNetwork
namespace Sync

/-- What the log of the kernel says: an object obtained a descriptor, `::close` was
called. -/
inductive Syscall where
  | obtained (n : Nat)
  | close (fd : Int)
  deriving DecidableEq

/-- The process's open descriptors, and the log. -/
structure Kernel where
  isOpen : Nat → Bool
  log : List Syscall

namespace Kernel

/-- An object obtained this descriptor. -/
def handOut (k : Kernel) (n : Nat) : Kernel where
  isOpen := Function.update k.isOpen n true
  log := .obtained n :: k.log

/-- `::close`; nothing but its number is known about a descriptor that is not one. -/
def close (k : Kernel) (fd : Int) : Kernel where
  isOpen := match fd with
    | .ofNat n => Function.update k.isOpen n false
    | .negSucc _ => k.isOpen
  log := .close fd :: k.log

end Kernel

/-- `sync::socket_base`. -/
structure SocketBase where
  fd : Int
  deriving DecidableEq

namespace SocketBase

/-- `invalid_fd`. -/
abbrev invalidFd : Int := -1

/-- `valid`. -/
def valid (s : SocketBase) : Bool := s.fd ≠ invalidFd

/-- `close`. -/
def close (s : SocketBase) (k : Kernel) : SocketBase × Kernel :=
  if s.fd ≠ invalidFd then (⟨invalidFd⟩, k.close s.fd) else (s, k)

/-- What `::socket` or `::accept` returns is a descriptor, or it failed; a descriptor
that it returns was not open. -/
def receive (k : Kernel) : Option Nat → Option (SocketBase × Kernel)
  | some n => if k.isOpen n then none else some (⟨n⟩, k.handOut n)
  | none => some (⟨invalidFd⟩, k)

/-- `create_impl`; `answer` is that of `::socket`. -/
def createImpl (s : SocketBase) (k : Kernel) (answer : Option Nat) :
    Option (SocketBase × Kernel) :=
  let (_, k) := if s.valid then s.close k else (s, k)
  receive k answer

end SocketBase

/-- A process with its sockets by address, and the first address not used so far. -/
structure Process where
  kernel : Kernel
  objects : Nat → Option SocketBase
  fresh : Nat

/-- What the program does; other code of it opens descriptors, and closes those that no
socket has. -/
inductive Op where
  | construct
  | adopt (n : Nat)
  | createImpl (o : Nat) (answer : Option Nat)
  | accept (o : Nat) (answer : Option Nat)
  | moveConstruct (other : Nat)
  | moveAssign (o other : Nat)
  | close (o : Nat)
  | destroy (o : Nat)
  | otherOpens (n : Nat)
  | otherCloses (n : Nat)
  deriving DecidableEq

namespace Process

def new : Process := ⟨⟨fun _ => false, []⟩, fun _ => none, 0⟩

/-- Some socket has this descriptor. -/
def owns (p : Process) (n : Nat) : Bool :=
  (List.range p.fresh).any fun o => p.objects o = some ⟨n⟩

/-- The process with this socket at `o`. -/
def put (p : Process) (o : Nat) (s : SocketBase) : Process :=
  { p with objects := Function.update p.objects o (some s) }

/-- The process with one socket more. -/
def add (p : Process) (s : SocketBase) : Process := { p.put p.fresh s with fresh := p.fresh + 1 }

/-- An operation; none if the program may not call it: on an object that does not exist,
or with a descriptor that is not open or that a socket has. -/
def step (p : Process) : Op → Option Process
  | .construct => some (p.add ⟨SocketBase.invalidFd⟩)
  | .adopt n =>
      if p.kernel.isOpen n ∧ ¬ p.owns n then
        some { p.add ⟨n⟩ with kernel := p.kernel.handOut n }
      else none
  | .createImpl o answer => do
      let s ← p.objects o
      let (s, k) ← s.createImpl p.kernel answer
      return { p.put o s with kernel := k }
  | .accept o answer => do
      let s ← p.objects o
      let (s, k) ← SocketBase.receive p.kernel (if s.valid then answer else none)
      return { p.add s with kernel := k }
  | .moveConstruct other => do
      let s ← p.objects other
      return (p.put other ⟨SocketBase.invalidFd⟩).add ⟨s.fd⟩
  | .moveAssign o other => do
      let s ← p.objects o
      let s' ← p.objects other
      if o ≠ other then
        return { (p.put o ⟨s'.fd⟩).put other ⟨SocketBase.invalidFd⟩ with
          kernel := p.kernel.close s.fd }
      else return p
  | .close o => do
      let s ← p.objects o
      let (s, k) := s.close p.kernel
      return { p.put o s with kernel := k }
  | .destroy o => do
      let s ← p.objects o
      let (_, k) := s.close p.kernel
      return { p with kernel := k, objects := Function.update p.objects o none }
  | .otherOpens n =>
      if p.kernel.isOpen n then none
      else some { p with
        kernel := { p.kernel with isOpen := Function.update p.kernel.isOpen n true } }
  | .otherCloses n =>
      if p.kernel.isOpen n ∧ ¬ p.owns n then
        some { p with
          kernel := { p.kernel with isOpen := Function.update p.kernel.isOpen n false } }
      else none

/-! ## The books -/

/-- What the sockets hold, and how often each descriptor was obtained and closed. -/
def books (p : Process) : Custody.Books Nat Nat where
  holds o := (p.objects o).bind fun s => s.fd.toNat?
  acquired n := p.kernel.log.count (.obtained n)
  released n := p.kernel.log.count (.close n)

/-- There are no sockets at new addresses, and a `fd_` that is not a descriptor is `-1`. -/
structure Tidy (p : Process) : Prop where
  invalid : ∀ {o s}, p.objects o = some s → s.fd.toNat? = none → s.fd = SocketBase.invalidFd
  fresh : ∀ {o}, p.fresh ≤ o → p.objects o = none

/-- The books are exact, and the descriptors that sockets hold are open. -/
structure Accounted (p : Process) : Prop extends p.Tidy where
  exact : p.books.Exact
  isOpen : ∀ {o n}, p.books.holds o = some n → p.kernel.isOpen n = true

variable {p p' : Process} {o o' n : Nat} {s : SocketBase} {k : Kernel}

theorem holds_iff : p.books.holds o = some n ↔ p.objects o = some ⟨n⟩ := by
  show (p.objects o).bind _ = _ ↔ _
  rw [Option.bind_eq_some_iff]
  constructor
  · rintro ⟨⟨fd⟩, hs, hn⟩
    cases fd with
    | ofNat m =>
      obtain rfl := Option.some.inj hn
      exact hs
    | negSucc m => cases hn
  · intro h
    exact ⟨⟨n⟩, h, rfl⟩

theorem new_accounted : new.Accounted where
  invalid h := by cases h
  fresh _ := rfl
  exact := Custody.Books.exact_new
  isOpen h := by cases h

/-! ## What an operation does to the books -/

theorem books_put (p : Process) (o : Nat) (s : SocketBase) (k : Kernel) :
    { p.put o s with kernel := k }.books.holds
      = Function.update p.books.holds o s.fd.toNat? := by
  funext o'
  show (Function.update p.objects o (some s) o').bind _ = _
  by_cases ho : o' = o
  · subst ho
    rw [Function.update_self, Function.update_self]
    rfl
  · rw [Function.update_of_ne ho, Function.update_of_ne ho]
    rfl

/-- A socket is put where one was. -/
theorem Tidy.put (h : p.Tidy) (ho : p.objects o ≠ none)
    (hs : s.fd.toNat? = none → s.fd = SocketBase.invalidFd) :
    { p.put o s with kernel := k }.Tidy where
  invalid {o' s'} hs' := by
    change Function.update p.objects o (some s) o' = some s' at hs'
    by_cases ho' : o' = o
    · subst ho'
      rw [Function.update_self] at hs'
      exact Option.some.inj hs' ▸ hs
    · rw [Function.update_of_ne ho'] at hs'
      exact h.invalid hs'
  fresh {o'} ho' := by
    show Function.update p.objects o (some s) o' = none
    have hne : o' ≠ o := by
      rintro rfl
      exact ho (h.fresh ho')
    rw [Function.update_of_ne hne]
    exact h.fresh ho'

/-- Counting one call more, of a kind that has numbers. -/
theorem count_cons {f : Nat → Syscall} (hf : ∀ {n m}, f n = f m → n = m) (n : Nat)
    (log : List Syscall) : (fun m => (f n :: log).count (f m))
      = Function.update (fun m => log.count (f m)) n (log.count (f n) + 1) := by
  funext m
  by_cases hm : m = n
  · subst hm
    rw [Function.update_self, List.count_cons_self]
  · rw [Function.update_of_ne hm, List.count_cons_of_ne]
    intro h
    exact hm (hf h).symm

/-- A socket that has no descriptor obtains one that nobody has. -/
theorem Accounted.obtain (h : p.Accounted) (ho : p.objects o = some ⟨SocketBase.invalidFd⟩)
    (hn : ∀ o', p.books.holds o' ≠ some n) :
    { p.put o ⟨n⟩ with kernel := p.kernel.handOut n }.Accounted := by
  have hnone : p.books.holds o = none := by
    show (p.objects o).bind _ = none
    rw [ho]
    rfl
  have hbooks : { p.put o ⟨n⟩ with kernel := p.kernel.handOut n }.books
      = p.books.enter (.acquire o n) := by
    refine Custody.Books.ext (books_put ..) ?_ ?_
    · exact count_cons Syscall.obtained.inj n p.kernel.log
    · funext m
      show (Syscall.obtained n :: p.kernel.log).count (.close m) = p.kernel.log.count (.close m)
      rw [List.count_cons_of_ne]
      exact Syscall.noConfusion
  refine ⟨h.put (by rw [ho]; exact Option.some_ne_none _) (fun hn => by cases hn), ?_, ?_⟩
  · rw [hbooks]
    exact (Custody.Books.exact_acquire_iff h.exact hnone).mpr hn
  · intro o' m hm
    rw [books_put] at hm
    show Function.update p.kernel.isOpen n true m = true
    by_cases hmn : m = n
    · rw [hmn, Function.update_self]
    · rw [Function.update_of_ne hmn]
      by_cases ho' : o' = o
      · rw [ho', Function.update_self] at hm
        exact absurd (Option.some.inj hm).symm hmn
      · rw [Function.update_of_ne ho'] at hm
        exact h.isOpen hm

/-- A socket closes the descriptor that it has. -/
theorem Accounted.release (h : p.Accounted) (ho : p.objects o = some ⟨n⟩) :
    { p.put o ⟨SocketBase.invalidFd⟩ with kernel := p.kernel.close n }.Accounted := by
  have hhold : p.books.holds o = some n := holds_iff.mpr ho
  have hbooks : { p.put o ⟨SocketBase.invalidFd⟩ with kernel := p.kernel.close n }.books
      = p.books.enter (.release o n) := by
    refine Custody.Books.ext (books_put ..) ?_ ?_
    · funext m
      show (Syscall.close n :: p.kernel.log).count (.obtained m) = p.kernel.log.count (.obtained m)
      rw [List.count_cons_of_ne]
      exact Syscall.noConfusion
    · exact count_cons (f := fun m => .close m) (fun h => Int.ofNat.inj (Syscall.close.inj h)) n
        p.kernel.log
  refine ⟨h.put (by rw [ho]; exact Option.some_ne_none _) (fun _ => rfl), ?_, ?_⟩
  · rw [hbooks]
    exact h.exact.release hhold
  · intro o' m hm
    rw [books_put] at hm
    show Function.update p.kernel.isOpen n false m = true
    by_cases ho' : o' = o
    · rw [ho', Function.update_self] at hm
      cases hm
    · rw [Function.update_of_ne ho'] at hm
      have hmn : m ≠ n := by
        rintro rfl
        exact ho' (h.exact.unique hhold hm)
      rw [Function.update_of_ne hmn]
      exact h.isOpen hm

/-- A socket hands what it has to one that has nothing. -/
theorem Accounted.hand (h : p.Accounted) (hne : o ≠ o') (ho : p.objects o = some s)
    (ho' : p.objects o' = some ⟨SocketBase.invalidFd⟩) :
    ((p.put o ⟨SocketBase.invalidFd⟩).put o' ⟨s.fd⟩).Accounted := by
  have hnone : p.books.holds o' = none := by
    show (p.objects o').bind _ = none
    rw [ho']
    rfl
  have hhold : p.books.holds o = s.fd.toNat? := by
    show (p.objects o).bind _ = _
    rw [ho]
    rfl
  have hbooks : ((p.put o ⟨SocketBase.invalidFd⟩).put o' ⟨s.fd⟩).books = p.books.hand o o' := by
    refine Custody.Books.ext ?_ rfl rfl
    show _ = Function.update (Function.update p.books.holds o none) o' (p.books.holds o)
    rw [hhold]
    exact (books_put (p.put o ⟨SocketBase.invalidFd⟩) o' ⟨s.fd⟩ p.kernel).trans
      (congrArg (Function.update · o' _) (books_put p o ⟨SocketBase.invalidFd⟩ p.kernel))
  have htidy : (p.put o ⟨SocketBase.invalidFd⟩).Tidy :=
    h.toTidy.put (by rw [ho]; exact Option.some_ne_none _) (fun _ => rfl)
  refine ⟨htidy.put ?_ (h.invalid ho), ?_, ?_⟩
  · show Function.update p.objects o _ o' ≠ none
    rw [Function.update_of_ne hne.symm, ho']
    exact Option.some_ne_none _
  · rw [hbooks]
    exact h.exact.hand hne hnone
  · intro j m hm
    rw [hbooks] at hm
    change Function.update (Function.update p.books.holds o none) o' (p.books.holds o) j = some m
      at hm
    show p.kernel.isOpen m = true
    by_cases hj' : j = o'
    · rw [hj', Function.update_self] at hm
      exact h.isOpen hm
    · rw [Function.update_of_ne hj'] at hm
      by_cases hj : j = o
      · rw [hj, Function.update_self] at hm
        cases hm
      · rw [Function.update_of_ne hj] at hm
        exact h.isOpen hm

theorem Tidy.books_add (h : p.Tidy) : (p.add ⟨SocketBase.invalidFd⟩).books = p.books := by
  refine Custody.Books.ext ?_ rfl rfl
  rw [show (p.add ⟨SocketBase.invalidFd⟩).books.holds = _ from
    books_put p p.fresh ⟨SocketBase.invalidFd⟩ p.kernel]
  refine Function.update_eq_self_iff.mpr ?_
  show none = (p.objects p.fresh).bind _
  rw [h.fresh (Nat.le_refl _)]
  rfl

/-- One socket more, that has no descriptor. -/
theorem Accounted.add (h : p.Accounted) : (p.add ⟨SocketBase.invalidFd⟩).Accounted := by
  have hbooks := h.books_add
  constructor
  · constructor
    · intro o' s' hs'
      change Function.update p.objects p.fresh _ o' = some s' at hs'
      by_cases ho' : o' = p.fresh
      · rw [ho', Function.update_self] at hs'
        obtain rfl := Option.some.inj hs'
        exact fun _ => rfl
      · rw [Function.update_of_ne ho'] at hs'
        exact h.invalid hs'
    · intro o' ho'
      change p.fresh + 1 ≤ o' at ho'
      show Function.update p.objects p.fresh _ o' = none
      rw [Function.update_of_ne (by omega)]
      exact h.fresh (by omega)
  · rw [hbooks]
    exact h.exact
  · rw [hbooks]
    exact h.isOpen

/-- `::close(-1)`, and what other code does to a descriptor that no socket has. -/
theorem Accounted.kernel (h : p.Accounted) (hobtained : ∀ n, k.log.count (.obtained n)
      = p.kernel.log.count (.obtained n))
    (hclosed : ∀ n : Nat, k.log.count (.close n) = p.kernel.log.count (.close n))
    (hopen : ∀ o n, p.books.holds o = some n → k.isOpen n = true) :
    { p with kernel := k }.Accounted where
  invalid := h.invalid
  fresh := h.fresh
  exact := by
    have hbooks : { p with kernel := k }.books = p.books :=
      Custody.Books.ext rfl (funext hobtained) (funext hclosed)
    rw [hbooks]
    exact h.exact
  isOpen hn := hopen _ _ hn

/-- A socket that has no descriptor is gone. -/
theorem Accounted.remove (h : p.Accounted) (ho : p.objects o = some ⟨SocketBase.invalidFd⟩) :
    { p with objects := Function.update p.objects o none }.Accounted := by
  have hbooks : { p with objects := Function.update p.objects o none }.books = p.books := by
    refine Custody.Books.ext ?_ rfl rfl
    funext o'
    show (Function.update p.objects o none o').bind _ = (p.objects o').bind _
    by_cases ho' : o' = o
    · rw [ho', Function.update_self, ho]
      rfl
    · rw [Function.update_of_ne ho']
  constructor
  · constructor
    · intro o' s' hs'
      change Function.update p.objects o none o' = some s' at hs'
      by_cases ho' : o' = o
      · rw [ho', Function.update_self] at hs'
        cases hs'
      · rw [Function.update_of_ne ho'] at hs'
        exact h.invalid hs'
    · intro o' ho'
      show Function.update p.objects o none o' = none
      by_cases hoo : o' = o
      · rw [hoo, Function.update_self]
      · rw [Function.update_of_ne hoo]
        exact h.fresh ho'
  · rw [hbooks]
    exact h.exact
  · rw [hbooks]
    exact h.isOpen

/-- The `fd_` of a socket is a descriptor that it holds, or `-1`. -/
theorem Accounted.fd_cases (h : p.Accounted) (ho : p.objects o = some s) :
    (∃ n : Nat, s = ⟨n⟩) ∨ s = ⟨SocketBase.invalidFd⟩ := by
  obtain ⟨fd⟩ := s
  cases fd with
  | ofNat n => exact .inl ⟨n, rfl⟩
  | negSucc m =>
    have hfd : Int.negSucc m = SocketBase.invalidFd := h.invalid ho rfl
    exact .inr (congrArg _ hfd)

/-- `::close(fd_)`, with the socket left without a descriptor. -/
theorem Accounted.closeFd (h : p.Accounted) (ho : p.objects o = some s) :
    { p.put o ⟨SocketBase.invalidFd⟩ with kernel := p.kernel.close s.fd }.Accounted := by
  obtain ⟨n, rfl⟩ | rfl := h.fd_cases ho
  · exact h.release ho
  · rw [show p.put o ⟨SocketBase.invalidFd⟩ = p by
      rw [put, Function.update_eq_self_iff.mpr ho.symm]]
    refine h.kernel (fun n => ?_) (fun n => ?_) fun o n hn => h.isOpen hn
    · exact List.count_cons_of_ne Syscall.noConfusion
    · refine List.count_cons_of_ne fun heq => ?_
      cases Syscall.close.inj heq

/-- `close`: the socket has no descriptor afterwards. -/
theorem Accounted.close (h : p.Accounted) (ho : p.objects o = some s) :
    { p.put o (s.close p.kernel).1 with kernel := (s.close p.kernel).2 }.Accounted ∧
      (s.close p.kernel).1 = ⟨SocketBase.invalidFd⟩ := by
  rw [SocketBase.close]
  obtain ⟨n, rfl⟩ | rfl := h.fd_cases ho
  · rw [if_pos (by intro hn; cases hn)]
    exact ⟨h.release ho, rfl⟩
  · rw [if_neg (by simp), show p.put o ⟨SocketBase.invalidFd⟩ = p by
      rw [put, Function.update_eq_self_iff.mpr ho.symm]]
    exact ⟨h, rfl⟩

/-- `::socket` and `::accept`, for a socket that has no descriptor. -/
theorem Accounted.receive (h : p.Accounted) (ho : p.objects o = some ⟨SocketBase.invalidFd⟩)
    {answer : Option Nat} (hr : SocketBase.receive p.kernel answer = some (s, k)) :
    { p.put o s with kernel := k }.Accounted := by
  cases answer with
  | none =>
    obtain ⟨rfl, rfl⟩ := Prod.mk.inj (Option.some.inj hr)
    have hsame : p.put o ⟨SocketBase.invalidFd⟩ = p := by
      rw [put, Function.update_eq_self_iff.mpr ho.symm]
    rw [hsame]
    exact h
  | some n =>
    simp only [SocketBase.receive] at hr
    split at hr
    · cases hr
    next hopen =>
      obtain ⟨rfl, rfl⟩ := Prod.mk.inj (Option.some.inj hr)
      exact h.obtain ho fun o' ho' => hopen (h.isOpen ho')

/-! ## Runs -/

theorem Tidy.not_owns (h : p.Tidy) (hn : p.owns n = false) (o : Nat) :
    p.books.holds o ≠ some n := by
  intro ho
  rw [holds_iff] at ho
  have hlt : o < p.fresh := by
    by_contra hge
    rw [h.fresh (Nat.le_of_not_lt hge)] at ho
    cases ho
  rw [owns, List.any_eq_false] at hn
  exact hn o (List.mem_range.mpr hlt) (decide_eq_true ho)

theorem put_put (p : Process) (o : Nat) (s s' : SocketBase) :
    (p.put o s).put o s' = p.put o s' := by
  rw [put, put, put, Function.update_idem]

theorem put_comm (p : Process) (hne : o ≠ o') (s s' : SocketBase) :
    (p.put o s).put o' s' = (p.put o' s').put o s := by
  rw [put, put, put, put, Function.update_comm hne]

theorem add_put (p : Process) (s s' : SocketBase) : (p.add s).put p.fresh s' = p.add s' :=
  congrArg (fun q : Process => { q with fresh := p.fresh + 1 }) (p.put_put p.fresh s s')

theorem Tidy.ne_fresh (h : p.Tidy) (ho : p.objects o = some s) : o ≠ p.fresh := by
  rintro rfl
  rw [h.fresh (Nat.le_refl _)] at ho
  cases ho

theorem add_fresh (p : Process) (s : SocketBase) : (p.add s).objects p.fresh = some s :=
  Function.update_self ..

/-- `create_impl`: an invalid socket is as `close` would leave it. -/
theorem Accounted.createImpl (h : p.Accounted) (ho : p.objects o = some s) {s' : SocketBase}
    {answer : Option Nat} (hcreate : s.createImpl p.kernel answer = some (s', k)) :
    { p.put o s' with kernel := k }.Accounted := by
  have hclosed : SocketBase.receive (s.close p.kernel).2 answer = some (s', k) := by
    simp only [SocketBase.createImpl] at hcreate
    split at hcreate
    · exact hcreate
    next hvalid =>
      have hfd : ¬ s.fd ≠ SocketBase.invalidFd := by simpa [SocketBase.valid] using hvalid
      rw [SocketBase.close, if_neg hfd]
      exact hcreate
  obtain ⟨hclose, hinvalid⟩ := h.close ho
  rw [hinvalid] at hclose
  have hreceive := hclose.receive (Function.update_self ..) hclosed
  exact put_put p o _ s' ▸ hreceive

/-- The move constructor. -/
theorem Accounted.moveConstruct (h : p.Accounted) (ho : p.objects o = some s) :
    ((p.put o ⟨SocketBase.invalidFd⟩).add ⟨s.fd⟩).Accounted := by
  have hne := h.ne_fresh ho
  have hadded : (p.add ⟨SocketBase.invalidFd⟩).objects o = some s := by
    show Function.update p.objects p.fresh _ o = some s
    rw [Function.update_of_ne hne]
    exact ho
  have hhand := h.add.hand hne hadded (p.add_fresh _)
  rw [put_comm _ hne, add_put, show p.add ⟨s.fd⟩ =
    ({ p with fresh := p.fresh + 1 } : Process).put p.fresh ⟨s.fd⟩ from rfl,
    put_comm _ hne.symm] at hhand
  exact hhand

/-- The move assignment between two objects. -/
theorem Accounted.moveAssign (h : p.Accounted) (hne : o ≠ o') (ho : p.objects o = some s)
    {s' : SocketBase} (ho' : p.objects o' = some s') :
    { (p.put o ⟨s'.fd⟩).put o' ⟨SocketBase.invalidFd⟩ with
      kernel := p.kernel.close s.fd }.Accounted := by
  have hclosed := h.closeFd ho
  have hother : Function.update p.objects o (some ⟨SocketBase.invalidFd⟩) o' = some s' := by
    rw [Function.update_of_ne hne.symm]
    exact ho'
  have hhand := hclosed.hand hne.symm hother (Function.update_self ..)
  rw [put_comm _ hne.symm, show { p.put o ⟨SocketBase.invalidFd⟩ with
    kernel := p.kernel.close s.fd } = ({ p with kernel := p.kernel.close s.fd } : Process).put o
      ⟨SocketBase.invalidFd⟩ from rfl, put_put] at hhand
  exact hhand

/-- The destructor. -/
theorem Accounted.destroy (h : p.Accounted) (ho : p.objects o = some s) :
    { p with
      kernel := (s.close p.kernel).2
      objects := Function.update p.objects o none }.Accounted := by
  obtain ⟨hclose, hinvalid⟩ := h.close ho
  rw [hinvalid] at hclose
  have hremove := hclose.remove (o := o) (Function.update_self ..)
  have hobjects : Function.update (Function.update p.objects o (some ⟨SocketBase.invalidFd⟩)) o
      none = Function.update p.objects o none := Function.update_idem ..
  exact hobjects ▸ hremove

/-- Other code opens or closes a descriptor that no socket has. -/
theorem Accounted.otherUpdates (h : p.Accounted) (hfree : ∀ o, p.books.holds o ≠ some n)
    (b : Bool) :
    { p with
      kernel := { p.kernel with isOpen := Function.update p.kernel.isOpen n b } }.Accounted := by
  refine h.kernel (fun _ => rfl) (fun _ => rfl) fun o m hm => ?_
  show Function.update p.kernel.isOpen n b m = true
  have hmn : m ≠ n := by
    rintro rfl
    exact hfree o hm
  rw [Function.update_of_ne hmn]
  exact h.isOpen hm

/-- **Every operation keeps the books**: a step lemma with one case per operation. -/
theorem step_accounted {op : Op} (h : p.Accounted) (hstep : p.step op = some p') :
    p'.Accounted := by
  cases op with
  | construct =>
    cases hstep
    exact h.add
  | adopt n =>
    simp only [step] at hstep
    split at hstep
    next hn =>
      cases hstep
      have hobtain := h.add.obtain (p.add_fresh _) (n := n)
      rw [h.books_add, add_put] at hobtain
      exact hobtain (h.not_owns (Bool.not_eq_true _ ▸ hn.2))
    · cases hstep
  | createImpl o answer =>
    simp only [step, Option.bind_eq_bind, Option.bind_eq_some_iff] at hstep
    obtain ⟨s, ho, ⟨s', k⟩, hcreate, hp'⟩ := hstep
    cases hp'
    exact h.createImpl ho hcreate
  | accept o answer =>
    simp only [step, Option.bind_eq_bind, Option.bind_eq_some_iff] at hstep
    obtain ⟨s, ho, ⟨s', k⟩, hreceive, hp'⟩ := hstep
    cases hp'
    have hadded := h.add.receive (p.add_fresh _) hreceive
    rwa [add_put] at hadded
  | moveConstruct other =>
    simp only [step, Option.bind_eq_bind, Option.bind_eq_some_iff] at hstep
    obtain ⟨s, hother, hp'⟩ := hstep
    cases hp'
    exact h.moveConstruct hother
  | moveAssign o other =>
    simp only [step, Option.bind_eq_bind, Option.bind_eq_some_iff] at hstep
    obtain ⟨s, ho, s', hother, hp'⟩ := hstep
    by_cases hne : o = other
    · rw [if_neg (not_not.mpr hne)] at hp'
      cases hp'
      exact h
    · rw [if_pos hne] at hp'
      cases hp'
      exact h.moveAssign hne ho hother
  | close o =>
    simp only [step, Option.bind_eq_bind, Option.bind_eq_some_iff] at hstep
    obtain ⟨s, ho, hp'⟩ := hstep
    cases hp'
    exact (h.close ho).1
  | destroy o =>
    simp only [step, Option.bind_eq_bind, Option.bind_eq_some_iff] at hstep
    obtain ⟨s, ho, hp'⟩ := hstep
    cases hp'
    exact h.destroy ho
  | otherOpens n =>
    simp only [step] at hstep
    split at hstep
    · cases hstep
    next hopen =>
      cases hstep
      exact h.otherUpdates (fun o ho => hopen (h.isOpen ho)) true
  | otherCloses n =>
    simp only [step] at hstep
    split at hstep
    next hn =>
      cases hstep
      exact h.otherUpdates (h.not_owns (Bool.not_eq_true _ ▸ hn.2)) false
    · cases hstep

/-- How often a descriptor was obtained by sockets so far, and closed. -/
def obtained (p : Process) (n : Nat) : Nat := p.kernel.log.count (.obtained n)

def closed (p : Process) (n : Nat) : Nat := p.kernel.log.count (.close n)

/-- **The sockets of a program own their descriptors**, whatever operations it calls: no
descriptor has two sockets; a descriptor that was obtained and not closed is open and has
exactly one, which a descriptor that was closed as often as it was obtained has not; and
when all sockets are destroyed, each was closed as often as it was obtained.  There are no
valid sockets but those with a descriptor. -/
theorem sockets_own {ops : List Op} (hr : Runs.run step new ops = some p) :
    (∀ o o' s, p.objects o = some s → p.objects o' = some s → s.valid = true → o = o') ∧
      (∀ n, p.closed n < p.obtained n → p.obtained n = p.closed n + 1 ∧
        p.kernel.isOpen n = true ∧ ∃! o, p.objects o = some ⟨n⟩) ∧
      (∀ n, ¬ p.closed n < p.obtained n → p.obtained n = p.closed n ∧
        ∀ o, p.objects o ≠ some ⟨n⟩) ∧
      ((∀ o, p.objects o = none) → ∀ n, p.obtained n = p.closed n) ∧
      ∀ o s, p.objects o = some s → s.valid = true → ∃ n : Nat, s = ⟨n⟩ := by
  have h : p.Accounted :=
    Runs.run_invariant (fun _ _ _ h hstep => step_accounted h hstep) new_accounted hr
  have hvalid : ∀ o s, p.objects o = some s → s.valid = true → ∃ n : Nat, s = ⟨n⟩ := by
    intro o s ho hvalid
    obtain hn | rfl := h.fd_cases ho
    · exact hn
    · cases hvalid
  refine ⟨?_, ?_, ?_, ?_, hvalid⟩
  · intro o o' s ho ho' hs
    obtain ⟨n, rfl⟩ := hvalid o s ho hs
    exact (h.exact.unique (holds_iff.mpr ho) (holds_iff.mpr ho')).symm
  · intro n hn
    rcases h.exact n with ⟨⟨o, ho, huniq⟩, hbalance⟩ | ⟨-, hbalance⟩
    · refine ⟨hbalance, h.isOpen ho, o, holds_iff.mp ho, fun o' ho' => ?_⟩
      exact huniq o' (holds_iff.mpr ho')
    · exact absurd hbalance (Nat.ne_of_gt hn)
  · intro n hn
    rcases h.exact n with ⟨-, hbalance⟩ | ⟨hfree, hbalance⟩
    · have hlt : p.closed n < p.obtained n := by
        rw [show p.obtained n = p.closed n + 1 from hbalance]
        exact Nat.lt_succ_self _
      exact absurd hlt hn
    · exact ⟨hbalance, fun o ho => hfree o (holds_iff.mpr ho)⟩
  · intro hnone n
    refine congrFun (h.exact.released fun o => ?_) n
    show (p.objects o).bind _ = none
    rw [hnone o]
    rfl

/-- The number 3 is obtained, closed by an assignment, and obtained again. -/
theorem sockets_own_reused :
    ∃ p, Runs.run step new [.construct, .createImpl 0 (some 3), .construct,
        .createImpl 1 (some 4), .moveAssign 0 1, .createImpl 1 (some 3), .destroy 1] = some p ∧
      p.obtained 3 = 2 ∧ p.closed 3 = 2 ∧ ∀ o, p.objects o ≠ some ⟨(3 : Nat)⟩ := by
  obtain ⟨p, hp, h3, h3'⟩ : ∃ p, Runs.run step new [.construct, .createImpl 0 (some 3),
      .construct, .createImpl 1 (some 4), .moveAssign 0 1, .createImpl 1 (some 3), .destroy 1]
      = some p ∧ p.obtained 3 = 2 ∧ p.closed 3 = 2 := Runs.exists_run (by decide)
  exact ⟨p, hp, h3, h3', ((sockets_own hp).2.2.1 3 (by omega)).2⟩

end Process
end Sync
end AcppNetwork
