import Clarmor.Library.Word
import Clarmor.Library.Loop
import Clarmor.Library.Store
import Clarmor.Library.Table
import Clarmor.Library.Run
import Clarmor.Library.Reduce
import Clarmor.Library.Box
import Clarmor.Library.Segment
import Clarmor.Library.Access
import Clarmor.Library.Queues
import Clarmor.Library.Items
import Clarmor.Library.SortedList
import Clarmor.Library.Arrays
import Clarmor.Defines
import Clarmor.MetaData.MemObj
import Clarmor.MetaData.Kernel
import Clarmor.Image.Desc
import Clarmor.Image.Canary
import Clarmor.Image.Layout
import Clarmor.Image.CanarySize
import Clarmor.Image.Decode
import Clarmor.Image.FlatCopy
import Clarmor.Runtime.Memory
import Clarmor.Wrapper.MemObjects
import Clarmor.Check.Mend
import Clarmor.Check.Repair
import Clarmor.Wrapper.Placement
import Clarmor.Check.HostCheck
import Clarmor.Check.CanaryScan
import Clarmor.Check.DeviceKernels
import Clarmor.Check.Strategies
import Clarmor.Check.MergedResults
import Clarmor.Check.Agreement
import Clarmor.Check.ImageKernel
import Clarmor.Wrapper.Tracking
import Clarmor.Wrapper.Lifetimes
import Clarmor.Runtime.Svm
import Clarmor.Wrapper.Svm
import Clarmor.Wrapper.SvmBases
import Clarmor.Wrapper.FgRegions
import Clarmor.Wrapper.Statistics
import Clarmor.Wrapper.CommandQueues
import Clarmor.Wrapper.QueueProperties
import Clarmor.Wrapper.UniversalCopies
import Clarmor.Runtime.Events
import Clarmor.Wrapper.Events
import Clarmor.Wrapper.EventOwners
import Clarmor.Wrapper.Kernels
import Clarmor.Launch.Arguments
import Clarmor.Launch.ArgLists
import Clarmor.Launch.CloneOrder
import Clarmor.Launch.Reports
import Clarmor.Runtime.Kernels
import Clarmor.Launch.CloneArguments
import Clarmor.Launch.RegionTable
import Clarmor.Launch.ClonedDescriptions
import Clarmor.Launch.CheckArrays
import Clarmor.Launch.LaunchEvents
import Clarmor.Launch.FilledArrays
import Clarmor.Check.SvmContexts
import Clarmor.Check.SvmEvents
import Clarmor.Check.GivenArguments
import Clarmor.Api.Transfers
import Clarmor.Wrapper.ImageCalls
import Clarmor.Api.HostImages
import Clarmor.Api.Images
import Clarmor.Api.AllocationLimit
import Clarmor.Api.ImageBufferCopies
import Clarmor.Api.TransferResults
import Clarmor.Api.ObjectInfo
import Clarmor.Api.ImageUploads
import Clarmor.Api.FailedCreations
import Clarmor.Api.SvmPointers
import Clarmor.Api.Redirection
import Clarmor.Library.Races
import Clarmor.Check.CopyProtocol
import Clarmor.Check.CopyFootprints
import Clarmor.Check.CopyRuns
import Clarmor.Check.CopyVerdict
import Clarmor.Launch.CloneContents
import Clarmor.Launch.BufferLaunches
import Clarmor.Library.LinkedList
import Clarmor.Launch.ArgNodes
import Clarmor.Launch.ArgNodeCalls
import Clarmor.Launch.ArgNodeRuns
import Clarmor.Check.PartsProtocol
import Clarmor.Check.PartsRuns
import Clarmor.Check.PartsVerdict
import Clarmor.Image.CanaryBytes
import Clarmor.Check.ImageProtocol
import Clarmor.Check.ImageRuns
import Clarmor.Check.ImageVerdict
import Clarmor.Check.HostImageCheck
import Clarmor.Check.ImageAgreement
