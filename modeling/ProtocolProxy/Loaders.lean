import ProtocolProxy.Sockmap

/-!
# The two sockmap loaders

`Sockmap` of `rust/crates/utopia-proxy/src/sockmap/mod.rs` with `Inner::load` of `linux.rs`, and
`Loader` of `src/Sockmap/Loader.php`, from their `load` to any sequence of `insertPair`,
`removePair` and `close`.  The servers load a loader once, right after it is made.

Both have the kernel redirect segments by the map of a BPF object.  The Rust loader has its map in
`Inner`, under 64-bit keys.  The PHP loader writes keys as signed integers and hands the kernel
their bytes.
-/

namespace ProtocolProxy

namespace Sockmap

/-- What a loader meets while it loads.  The PHP extension, the two libraries and the numbers of the
descriptors matter to the PHP loader only, the texts of the errors to the Rust one. -/
structure LoadEnv where
  ffi : Bool
  linux : Bool
  path : String
  isFile : Bool
  libbpf : Except String Unit
  libc : Except String Unit
  openFile : Except String Unit
  loadRc : ℤ
  loadError : String
  prog : Option ℤ
  peers : Option ℤ
  attachRc : ℤ
  attachError : String

/-- A call on a loader, with the open descriptors and what the kernel answers. -/
inductive Call
  | insertPair (fds : Fds) (k : MapAnswers) (acceptFd backendFd : RawFd)
  | removePair (acceptFd backendFd : RawFd)
  | close

/-! ## The Rust loader -/

/-- `Inner::load`. -/
def Inner.load (env : LoadEnv) : Except String Inner :=
  if !env.isFile then .error ("BPF object not found: " ++ env.path)
  else
    match env.openFile with
    | .error e => .error ("open_file: " ++ e)
    | .ok _ =>
      if env.loadRc < 0 then .error ("load: " ++ env.loadError)
      else if env.peers.isNone then .error "map 'peers' not found"
      else if env.prog.isNone then .error "program 'relay' not found"
      else if env.attachRc < 0 then .error ("bpf_prog_attach failed: " ++ env.attachError)
      else .ok ⟨fun _ => none, fun _ => none⟩

/-- `answers` has what `load` and `insert_pair` returned, and is read by nothing. -/
structure State where
  available : Bool
  lastError : String
  inner : Option Inner
  answers : List Bool

def load (env : LoadEnv) : State :=
  if !env.linux then ⟨false, "sockmap requires Linux", none, [false]⟩
  else
    match Inner.load env with
    | .ok inner => ⟨true, "", some inner, [true]⟩
    | .error e => ⟨false, e, none, [false]⟩

def State.call (s : State) : Call → State
  | .insertPair fds k acceptFd backendFd =>
    match s.available, s.inner with
    | true, some inner =>
      let (inner, ok) := insertPair fds inner k acceptFd backendFd
      { s with inner := some inner, answers := s.answers ++ [ok] }
    | _, _ => { s with answers := s.answers ++ [false] }
  | .removePair acceptFd _ =>
    { s with inner := s.inner.map fun inner => removePair inner true acceptFd }
  | .close => { s with available := false, inner := none }

/-- Where the kernel sends a segment. -/
def State.redirect (s : State) (skb : SkBuff) : Option Socket :=
  s.inner.bind fun inner => inner.peers (bpfTupleKey skb)

/-! ## The PHP loader -/

namespace Loader

/-- `ffi` and `libc` say whether the libraries are there.  `object` is the open object, with the map
that `peersFd` is a descriptor of. -/
structure State where
  ffi : Bool
  libc : Bool
  object : Option (Bytes → Option Socket)
  available : Bool
  lastError : String
  allocatedPairs : RawFd → Option (Int64 × Int64)
  answers : List Bool

def new : State := ⟨false, false, none, false, "", fun _ => none, []⟩

/-- `load` returns false. -/
def State.fail (s : State) (lastError : String) : State :=
  { s with lastError := lastError, answers := s.answers ++ [false] }

/-- `load` from where the object is opened.  An object that cannot be used is closed again. -/
def State.loadObject (s : State) (env : LoadEnv) : State :=
  match env.openFile with
  | .error _ => s.fail "bpf_object__open_file returned error"
  | .ok _ =>
    if env.loadRc < 0 then s.fail ("bpf_object__load failed rc=" ++ toString env.loadRc)
    else
      match env.prog, env.peers with
      | some progFd, some peersFd =>
        if progFd < 0 ∨ peersFd < 0 then
          s.fail ("fd extraction failed prog=" ++ toString progFd ++ " peers=" ++ toString peersFd)
        else if env.attachRc < 0 then
          s.fail ("bpf_prog_attach failed rc=" ++ toString env.attachRc)
        else
          { s with
            object := some fun _ => none, available := true, answers := s.answers ++ [true] }
      | _, _ => s.fail "prog or map lookup by name returned null"

def load (env : LoadEnv) : State :=
  if !env.ffi then new.fail "ext-ffi not loaded"
  else if !env.linux then new.fail "not Linux"
  else if !env.isFile then new.fail ("BPF object not found: " ++ env.path)
  else
    match env.libbpf, env.libc with
    | .error e, _ => new.fail ("FFI::cdef libbpf.so.1: " ++ e)
    | .ok _, .error e => { new with ffi := true }.fail ("FFI::cdef libc.so.6: " ++ e)
    | .ok _, .ok _ => { new with ffi := true, libc := true }.loadObject env

/-- `tupleKey` of a descriptor. -/
def State.tupleKeyOf (s : State) (fds : Fds) (fd : RawFd) : Int64 :=
  tupleKey s.libc ((fds fd).map getsocknameInet) ((fds fd).map getpeernameInet)

/-- The kernel has `value` under a key from now on. -/
def State.setPeer (s : State) (key : Int64) (value : Option Socket) : State :=
  { s with object := s.object.map fun peers => Function.update peers (packU64Le key) value }

def State.insertPair (s : State) (fds : Fds) (k : MapAnswers) (acceptFd backendFd : RawFd) :
    State × Bool :=
  if !s.available || !s.ffi then (s, false)
  else
    let selfKey := s.tupleKeyOf fds acceptFd
    let peerKey := s.tupleKeyOf fds backendFd
    if selfKey = 0 ∨ peerKey = 0 then (s, false)
    else if !k.update then (s, false)
    else
      let t := s.setPeer selfKey (fds backendFd)
      if !k.update' then (if k.delete then t.setPeer selfKey none else t, false)
      else
        ({ t.setPeer peerKey (fds acceptFd) with
          allocatedPairs := Function.update s.allocatedPairs acceptFd (some (selfKey, peerKey)) },
          true)

def State.removePair (s : State) (acceptFd : RawFd) : State :=
  if !s.available || !s.ffi then s
  else
    match s.allocatedPairs acceptFd with
    | none => s
    | some keys =>
      { (s.setPeer keys.1 none).setPeer keys.2 none with
        allocatedPairs := Function.update s.allocatedPairs acceptFd none }

def State.close (s : State) : State :=
  { s with
    object := if s.ffi then none else s.object
    available := false
    allocatedPairs := fun _ => none }

def State.call (s : State) : Call → State
  | .insertPair fds k acceptFd backendFd =>
    let (t, ok) := s.insertPair fds k acceptFd backendFd
    { t with answers := t.answers ++ [ok] }
  | .removePair acceptFd _ => s.removePair acceptFd
  | .close => s.close

def State.redirect (s : State) (skb : SkBuff) : Option Socket :=
  s.object.bind fun peers => peers (toLeBytes (bpfTupleKey skb))

end Loader

/-! ## What the two have in common -/

/-- PHP can load what Rust can: it has its extension and its libraries, and libbpf gives descriptors
for the program and the map that it finds. -/
structure LoadEnv.SupportsPhp (env : LoadEnv) : Prop where
  ffi : env.ffi = true
  linux : env.linux = true
  libbpf : env.libbpf = .ok ()
  libc : env.libc = .ok ()
  progFd : ∀ fd ∈ env.prog, 0 ≤ fd
  peersFd : ∀ fd ∈ env.peers, 0 ≤ fd

/-- The map that was found when the object was loaded is found again. -/
def Call.FindsMap : Call → Prop
  | .insertPair _ k _ _ => k.found = true
  | _ => True

/-- A PHP loader and a Rust loader that have answered the same and have the kernel send every
segment to the same socket. -/
structure SameRelay (p : Loader.State) (r : State) : Prop where
  available : p.available = r.available
  answers : p.answers = r.answers
  redirect : ∀ skb, p.redirect skb = r.redirect skb

/-- A loader that does nothing. -/
structure Loader.State.Inert (p : Loader.State) : Prop where
  available : p.available = false
  answers : ∀ ok ∈ p.answers, ok = false
  redirect : ∀ skb, p.redirect skb = none

end Sockmap

end ProtocolProxy
