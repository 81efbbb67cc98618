import LibOsdp.Lib.Crc
import LibOsdp.Lib.History
import LibOsdp.Phy.Proofs.Ring
import LibOsdp.Sc.Mac
import LibOsdp.Engine.Proofs.Reassembly
import LibOsdp.Pd.Proofs.Answers
import LibOsdp.Pd.Proofs.Freshness
import LibOsdp.Pd.Proofs.KeyIntegrity
import LibOsdp.Pd.Proofs.Comset
import LibOsdp.Pd.Proofs.KeepActive
import LibOsdp.Pd.Proofs.Sendable
import LibOsdp.Pd.Proofs.Selector
import LibOsdp.Pd.Proofs.Inline
import LibOsdp.Cp.Proofs.Bus
import LibOsdp.Cp.Proofs.Latch
import LibOsdp.Cp.Proofs.Record
import LibOsdp.Cp.Proofs.Rekey
import LibOsdp.Cp.Proofs.Probe
import LibOsdp.Cp.Proofs.Foreign
import LibOsdp.Cp.Proofs.Status
import LibOsdp.Cp.Proofs.Restore
import LibOsdp.Cp.Proofs.TrsCodec
import LibOsdp.Cp.Proofs.Waiting
import LibOsdp.Cp.Proofs.Retry
import LibOsdp.Engine.Proofs.Delivery
import LibOsdp.Phy.Proofs.Authentic
import LibOsdp.Phy.Proofs.Bounds
import LibOsdp.Phy.Proofs.Chunks
import LibOsdp.Phy.Proofs.RoundTrip
import LibOsdp.Proofs.Admission
import LibOsdp.Proofs.Reserve
import LibOsdp.Proofs.CardRoom
import LibOsdp.Proofs.Muting
import LibOsdp.Proofs.Marks
import LibOsdp.Engine.Proofs.Staged
import LibOsdp.Pd.Proofs.Polls
import LibOsdp.Proofs.CommandCodec
import LibOsdp.Proofs.Agreement
import LibOsdp.Cp.Proofs.Band
import LibOsdp.Cp.Proofs.AddPd
import LibOsdp.Phy.Proofs.Progress
import LibOsdp.Crypto.Proofs.TinyAes
import LibOsdp.Proofs.FileDelivery
