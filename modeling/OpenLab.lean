import OpenLab.Schedules
import OpenLab.LinkedCells
import OpenLab.TdmaTypes
import OpenLab.TdmaCore
import OpenLab.TdmaHandlers
import OpenLab.TdmaDevice
import OpenLab.TdmaTable
import OpenLab.TdmaLedger
import OpenLab.TdmaControl
import OpenLab.TdmaSteps
import OpenLab.TdmaPool
import OpenLab.TdmaEffects
import OpenLab.TdmaSlots
import OpenLab.TdmaScan
import OpenLab.TdmaCoordinator
import OpenLab.TdmaBeacon
import OpenLab.TdmaClock
import OpenLab.TdmaNetwork
import OpenLab.WrapTime
import OpenLab.SoftTimer
import OpenLab.SoftTimerWake
import OpenLab.SoftTimerPosts
import OpenLab.SoftTimerLinks
import OpenLab.SoftTimerClock
import OpenLab.IotlabTime
import OpenLab.Tally
import OpenLab.PacketQueue
import OpenLab.PacketPool
import OpenLab.PacketFifo
import OpenLab.IotlabSerial
import OpenLab.SerialOwners
import OpenLab.SerialRx
import OpenLab.SerialFraming
import OpenLab.IndexScan
import OpenLab.PageCache
import OpenLab.PageCacheCoherent
import OpenLab.PageCacheRefines
import OpenLab.LockTable
import OpenLab.PageTasks
import OpenLab.PageLocks
import OpenLab.PageDirty
import OpenLab.PageTransfer
import OpenLab.PageUnique
import OpenLab.PageApart
import OpenLab.PageAlone
import OpenLab.PageRetry
import OpenLab.PageWaiters
import OpenLab.PageBytes
import OpenLab.PageCacheDurable
import OpenLab.Fat32File
import OpenLab.Fat32Table
import OpenLab.ChainLedger
import OpenLab.Fat32Directory
import OpenLab.Fat32Consistent
import OpenLab.Fat32Calls
import OpenLab.Fat32Write
import OpenLab.Fat32Volume
import OpenLab.Fat32Integrity
import OpenLab.Fat32Retry
import OpenLab.Fat32Content
import OpenLab.Fat32RoundTrip
import OpenLab.Fat32Reopen
import OpenLab.PhyRf2xx
import OpenLab.PhySteps
import OpenLab.PhyLowPower
import OpenLab.PhyOwned
import OpenLab.PhyCompletions
import OpenLab.PhyFrames
import OpenLab.MacCsma
import OpenLab.Max6x
import OpenLab.CnRadio
import OpenLab.CnRadioCommands
import OpenLab.CnRadioPolling
import OpenLab.CnRadioRejects
import OpenLab.CnConsumption
import OpenLab.ConsumptionAcks
import OpenLab.ByteFields
import OpenLab.CnMeasPkt
import OpenLab.MeasPktDecode
import OpenLab.IotlabTimeSet
import OpenLab.MmapfsVolume
import OpenLab.ScsiMmapfs
import OpenLab.Scsi
import OpenLab.UsbMsc
import OpenLab.ScsiDefined
import OpenLab.MscRead
import OpenLab.MscWrite
import OpenLab.UsbDescriptors
import OpenLab.RingWindow
import OpenLab.CdcAcm
import OpenLab.I2cSlave
import OpenLab.PrioFifo
import OpenLab.Fat32Search
import OpenLab.Fat32Mount
import OpenLab.Calendar
import OpenLab.Fat32Time
import OpenLab.NodeUid
import OpenLab.ScsiRange
import OpenLab.CnRadioHops
