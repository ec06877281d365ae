import HellohqRuntime.Http.Retention
import HellohqRuntime.Http.SessionGrammar
import HellohqRuntime.Http.Reassembly
import HellohqRuntime.Http.RequestBody
import HellohqRuntime.Foundation.Buckets
import HellohqRuntime.Gate.Address
import HellohqRuntime.Gate.GatedHooks
import HellohqRuntime.Bridge.Reporting
import HellohqRuntime.Bridge.Status
import HellohqRuntime.Bridge.Waiting
import HellohqRuntime.Bridge.HostCalls
import HellohqRuntime.Bridge.Freeing
import HellohqRuntime.Http.StatusCodes
import HellohqRuntime.Gate.Scrubbing
import HellohqRuntime.InferenceFraming
import HellohqRuntime.Http.ResponseStream
import HellohqRuntime.Limits.Annotation
import HellohqRuntime.Plugin.StorageEvents
import HellohqRuntime.Plugin.ByteStorage
import HellohqRuntime.Limits.MemoryCap
import HellohqRuntime.Jit.Ownership
import HellohqRuntime.Http.FrameGrammar
import HellohqRuntime.Http.ResponseChunks
import HellohqRuntime.Http.Immutability
import HellohqRuntime.Http.FieldsRefinement
import HellohqRuntime.Plugin.Rfc4648
import HellohqRuntime.Plugin.StorageReads
import HellohqRuntime.Gate.HeaderSanitizing
import HellohqRuntime.Gate.BlockedRanges
import HellohqRuntime.Plugin.AssetCounts
import HellohqRuntime.Http.TableIds
import HellohqRuntime.Plugin.StorageGuest
import HellohqRuntime.Http.Dispatch
import HellohqRuntime.Plugin.PluginGuest
import HellohqRuntime.InferenceStream
import HellohqRuntime.Jit.Publishing
import HellohqRuntime.Http.SoleReaders
import HellohqRuntime.Bridge.FreedGuest
import HellohqRuntime.Bridge.StreamDriver
import HellohqRuntime.Bridge.FreedDriver
import HellohqRuntime.GoGuest
import HellohqRuntime.Plugin.StorageAgreement
import HellohqRuntime.Plugin.WorkspaceGuest
