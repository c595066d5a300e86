import Mochad.World

/-!
# Mochad.Clients

The three client tables of `mochad.c`: 32 entries each for plain, Flash XML
and OpenRemote 2.0 clients, with a counter beside each table.
-/

namespace Mochad

/-- `init_client`. -/
def initClient : Clients where
  clientsocks := List.replicate maxclisockets (-1)
  clientxmlsocks := List.replicate maxclisockets (-1)
  clientor20socks := List.replicate maxclisockets (-1)
  nClients := 0
  nxmlClients := 0
  nor20Clients := 0

/-- Put a descriptor into the first free entry of a table, if there is one. -/
def addSlot (fd : Int) (socks : List Int) : Option (List Int) :=
  (socks.idxOf? (-1)).map fun i => socks.set i fd

/-- `add_client`. -/
def addClient (fd : Int) (c : Clients) : Int × Clients :=
  match addSlot fd c.clientsocks with
  | some socks => (0, { c with clientsocks := socks, nClients := c.nClients + 1 })
  | none => (-1, c)

/-- `add_xmlclient`. -/
def addXmlclient (fd : Int) (c : Clients) : Int × Clients :=
  match addSlot fd c.clientxmlsocks with
  | some socks => (0, { c with clientxmlsocks := socks, nxmlClients := c.nxmlClients + 1 })
  | none => (-1, c)

/-- `add_or20client`. -/
def addOr20client (fd : Int) (c : Clients) : Int × Clients :=
  match addSlot fd c.clientor20socks with
  | some socks => (0, { c with clientor20socks := socks, nor20Clients := c.nor20Clients + 1 })
  | none => (-1, c)

namespace World

/-- `close`: the descriptor has no local port any more. -/
@[simps] def close (fd : Int) (w : World) : World :=
  { w with sockPort := Function.update w.sockPort fd none, io := w.io ++ [.close fd] }

/-- `del_client`: the first table position that holds the descriptor is freed;
only an OpenRemote 2.0 client is closed here. -/
def delClient (fd : Int) (w : World) : Int × World :=
  let c := w.clients
  match (List.range maxclisockets).find? fun i =>
      c.clientsocks[i]? = some fd || c.clientxmlsocks[i]? = some fd ||
        c.clientor20socks[i]? = some fd with
  | none => (-1, w)
  | some i =>
      if c.clientsocks[i]? = some fd then
        (0, { w with clients :=
          { c with clientsocks := c.clientsocks.set i (-1), nClients := c.nClients - 1 } })
      else if c.clientxmlsocks[i]? = some fd then
        (0, { w with clients :=
          { c with clientxmlsocks := c.clientxmlsocks.set i (-1)
                   nxmlClients := c.nxmlClients - 1 } })
      else
        let w := (w.emit (.shutdown fd)).close fd
        (0, { w with clients :=
          { c with clientor20socks := c.clientor20socks.set i (-1)
                   nor20Clients := c.nor20Clients - 1 } })

/-- Only the client tables change, and an OpenRemote 2.0 client is closed. -/
theorem delClient_eq (fd : Int) (w : World) : ∃ clients sockPort io,
    (w.delClient fd).2 = { w with clients := clients, sockPort := sockPort, io := io } := by
  unfold delClient
  dsimp only
  split
  · exact ⟨_, _, _, rfl⟩
  · split
    · exact ⟨_, _, _, rfl⟩
    · split <;> exact ⟨_, _, _, rfl⟩

end World

/-- The descriptors `copy_clients` writes, table position by table position. -/
def copiedClients (c : Clients) : List Int :=
  (List.range maxclisockets).flatMap fun i =>
    [c.clientsocks.getD i (-1), c.clientxmlsocks.getD i (-1), c.clientor20socks.getD i (-1)].filter
      (· ≠ -1)

/-- `copy_clients`: the array from the client records on, and the count
returned, which is taken from the counters. -/
def copyClients (records : List Int) (c : Clients) : List Int × Nat :=
  (copiedClients c ++ records.drop (copiedClients c).length,
    c.nClients + c.nxmlClients + c.nor20Clients)

end Mochad
